import LanguageClient.Text.Replace
import Mathlib.Data.List.DropRight
/-!
# Trimming and cutting

What trimming leaves, seen from a character that is no blank: everything between the outermost such
characters stays (`trimChars_append_cons`), and nothing stays when there is none
(`trimChars_eq_nil_iff`).  Cutting at a separator finds the first one.
-/

namespace LanguageClient.Text

/-! ## Trimming -/

theorem trimChars_eq (cs : List Char) :
    trimChars cs = (cs.dropWhile isBlank).rdropWhile isBlank :=
  rfl

theorem dropWhile_append_cons {a b : List Char} {c : Char} (visible : isBlank c = false) :
    (a ++ c :: b).dropWhile isBlank = a.dropWhile isBlank ++ c :: b := by
  rw [List.dropWhile_append]
  split
  case isTrue empty =>
    rw [List.isEmpty_iff] at empty
    simp [empty, visible]
  case isFalse => rfl

theorem rdropWhile_append_cons {a b : List Char} {c : Char} (visible : isBlank c = false) :
    (a ++ c :: b).rdropWhile isBlank = a ++ c :: b.rdropWhile isBlank := by
  have turned : (a ++ c :: b).reverse = b.reverse ++ c :: a.reverse := by simp
  simp only [List.rdropWhile]
  rw [turned, dropWhile_append_cons visible]
  simp

/-- A character that is no blank stays, and with it what it parts from the ends. -/
theorem trimChars_append_cons {a b : List Char} {c : Char} (visible : isBlank c = false) :
    trimChars (a ++ c :: b) = a.dropWhile isBlank ++ c :: b.rdropWhile isBlank := by
  rw [trimChars_eq, dropWhile_append_cons visible, rdropWhile_append_cons visible]

theorem trimChars_eq_nil_iff {cs : List Char} : trimChars cs = [] ↔ ∀ c ∈ cs, isBlank c = true := by
  constructor
  · intro h c mem
    by_contra visible
    obtain ⟨a, b, rfl⟩ := List.append_of_mem mem
    rw [trimChars_append_cons (by simpa using visible)] at h
    simp at h
  · intro blank
    have gone : cs.dropWhile isBlank = [] := List.dropWhile_eq_nil_iff.mpr blank
    rw [trimChars_eq, gone, List.rdropWhile_nil]

/-- A text is blank throughout, or some character of it is not. -/
theorem blank_or_visible (cs : List Char) :
    (∀ c ∈ cs, isBlank c = true) ∨ ∃ a c b, cs = a ++ c :: b ∧ isBlank c = false := by
  by_cases blank : ∀ c ∈ cs, isBlank c = true
  · exact Or.inl blank
  · refine Or.inr ?_
    push Not at blank
    obtain ⟨c, mem, visible⟩ := blank
    obtain ⟨a, b, rfl⟩ := List.append_of_mem mem
    exact ⟨a, c, b, rfl, by simpa using visible⟩

theorem trimChars_dropWhile (cs : List Char) : trimChars (cs.dropWhile isBlank) = trimChars cs := by
  rw [trimChars_eq, List.dropWhile_idempotent, trimChars_eq]

theorem trimChars_rdropWhile (cs : List Char) :
    trimChars (cs.rdropWhile isBlank) = trimChars cs := by
  rcases blank_or_visible cs with blank | ⟨a, c, b, rfl, visible⟩
  · rw [List.rdropWhile_eq_nil_iff.mpr blank, trimChars_eq_nil_iff.mpr blank]
    rfl
  · rw [rdropWhile_append_cons visible, trimChars_append_cons visible,
      trimChars_append_cons visible, List.rdropWhile_idempotent]

theorem trimChars_append_blank (cs : List Char) {after : List Char}
    (blank : ∀ c ∈ after, isBlank c = true) : trimChars (cs ++ after) = trimChars cs := by
  have cut : (cs ++ after).rdropWhile isBlank = cs.rdropWhile isBlank := by
    rw [List.rdropWhile, List.reverse_append, List.dropWhile_append_of_pos (by simpa using blank)]
    rfl
  rw [← trimChars_rdropWhile, cut, trimChars_rdropWhile]

theorem eq_append_trimChars (cs : List Char) : ∃ a b, cs = a ++ trimChars cs ++ b := by
  obtain ⟨a, left⟩ := List.dropWhile_suffix (l := cs) isBlank
  obtain ⟨b, right⟩ := List.rdropWhile_prefix isBlank (cs.dropWhile isBlank)
  exact ⟨a, b, by rw [trimChars_eq, List.append_assoc, right, left]⟩

/-- Blanks around a text are what trimming takes away, if there are none inside. -/
theorem trimChars_padded {before text after : List Char}
    (blankBefore : ∀ c ∈ before, isBlank c = true) (blankAfter : ∀ c ∈ after, isBlank c = true)
    (visible : ∀ c ∈ text, isBlank c = false) : trimChars (before ++ text ++ after) = text := by
  have kept : text.dropWhile isBlank = text ∧ text.rdropWhile isBlank = text := by
    constructor
    · rw [List.dropWhile_eq_self_iff]
      intro nonempty
      simp [visible _ (List.getElem_mem nonempty)]
    · rw [List.rdropWhile_eq_self_iff]
      intro nonempty
      simp [visible _ (List.getLast_mem nonempty)]
  rw [trimChars_append_blank _ blankAfter, trimChars_eq,
    List.dropWhile_append_of_pos blankBefore, kept.1, kept.2]

/-! ## Separators -/

theorem splitOnce_eq_none {sep : Char} {cs : List Char} (absent : sep ∉ cs) :
    splitOnce sep cs = none := by
  induction cs with
  | nil => rfl
  | cons c cs ih =>
    rw [List.mem_cons, not_or] at absent
    rw [splitOnce, if_neg (Ne.symm absent.1), ih absent.2]
    rfl

theorem splitOnce_append_cons {sep : Char} {before : List Char} (after : List Char)
    (absent : sep ∉ before) : splitOnce sep (before ++ sep :: after) = some (before, after) := by
  induction before with
  | nil => simp [splitOnce]
  | cons c before ih =>
    rw [List.mem_cons, not_or] at absent
    rw [List.cons_append, splitOnce, if_neg (Ne.symm absent.1), ih absent.2]
    rfl

theorem dropPrefix?_isSome_iff {p cs : List Char} :
    (dropPrefix? p cs).isSome = true ↔ ∃ rest, cs = p ++ rest := by
  induction p generalizing cs with
  | nil => simp [dropPrefix?]
  | cons d p ih =>
    cases cs with
    | nil => simp [dropPrefix?]
    | cons c cs =>
      simp only [dropPrefix?, List.cons_append, List.cons.injEq]
      by_cases same : d = c
      · subst same
        simp [ih]
      · rw [if_neg same]
        simp [Ne.symm same]

/-! ## Case -/

/-- Only an ASCII character has an ASCII lower-case form. -/
theorem toNat_lt_of_lowerAscii {c : Char} (h : (lowerAscii c).toNat < 0x80) : c.toNat < 0x80 := by
  rw [lowerAscii] at h
  split at h
  case isTrue upper =>
    have : c.toNat ≤ 0x5A := upper.2
    omega
  case isFalse => exact h

end LanguageClient.Text
