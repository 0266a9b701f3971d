import LanguageClient.Text.Utf8
import Mathlib.Tactic.SplitIfs
/-!
# Reading UTF-8

The machine of `Utf8.Reader` reads back what `Utf8.encode` writes, and takes nothing else for text:
`decode?_eq_some_iff`.  The octets of a character are found in one piece wherever the character shows
up in the reading, even between octets that are no text (`exists_octets_of_run`), and an octet below
0x80 stands for itself wherever it comes (`decodeLossy_append_ascii`).

`Leads` carries the proofs.  It says of a reader inside a character that whatever octets come next,
as long as each lies in its range, the character they complete is the one written so.
-/

namespace LanguageClient.Utf8

/-! ## The octets of a character -/

theorem toNat_charOfNat {n : Nat} (h : n.isValidChar) : (Char.ofNat n).toNat = n := by
  have value : Char.ofNat n = Char.ofNatAux n h := dif_pos h
  rw [value]
  rfl

theorem utf8EncodeChar_one {c : Char} (h : c.toNat < 0x80) :
    String.utf8EncodeChar c = [UInt8.ofNat c.toNat] := by
  simp only [Char.toNat] at h ⊢
  simp only [String.utf8EncodeChar]
  rw [if_pos (by omega)]

theorem utf8EncodeChar_two {c : Char} (low : 0x80 ≤ c.toNat) (high : c.toNat < 0x800) :
    String.utf8EncodeChar c
      = [UInt8.ofNat (c.toNat / 64 + 0xC0), UInt8.ofNat (c.toNat % 64 + 0x80)] := by
  simp only [Char.toNat] at low high ⊢
  simp only [String.utf8EncodeChar]
  rw [if_neg (by omega), if_pos (by omega), Nat.mod_eq_of_lt (by omega)]

theorem utf8EncodeChar_three {c : Char} (low : 0x800 ≤ c.toNat) (high : c.toNat < 0x10000) :
    String.utf8EncodeChar c = [UInt8.ofNat (c.toNat / 4096 + 0xE0),
      UInt8.ofNat (c.toNat / 64 % 64 + 0x80), UInt8.ofNat (c.toNat % 64 + 0x80)] := by
  simp only [Char.toNat] at low high ⊢
  simp only [String.utf8EncodeChar]
  rw [if_neg (by omega), if_neg (by omega), if_pos (by omega),
    Nat.mod_eq_of_lt (a := _ / 4096) (by omega)]

theorem toNat_lt_0x110000 (c : Char) : c.toNat < 0x110000 := by
  rcases c.valid with h | ⟨-, h⟩
  · exact Nat.lt_trans h (by decide)
  · exact h

theorem utf8EncodeChar_four {c : Char} (low : 0x10000 ≤ c.toNat) :
    String.utf8EncodeChar c = [UInt8.ofNat (c.toNat / 262144 + 0xF0),
      UInt8.ofNat (c.toNat / 4096 % 64 + 0x80), UInt8.ofNat (c.toNat / 64 % 64 + 0x80),
      UInt8.ofNat (c.toNat % 64 + 0x80)] := by
  have high := toNat_lt_0x110000 c
  simp only [Char.toNat] at low high ⊢
  simp only [String.utf8EncodeChar]
  rw [if_neg (by omega), if_neg (by omega), if_neg (by omega),
    Nat.mod_eq_of_lt (a := _ / 262144) (by omega)]

theorem eq_ofNat {b : UInt8} {n : Nat} (h : b.toNat = n % 256) : UInt8.ofNat n = b := by
  apply UInt8.toNat_inj.mp
  simp [h]

/-! ## First octets -/

theorem lead_one {b : UInt8} (h : b.toNat < 0x80) : lead b = .inl (some (Char.ofNat b.toNat)) := by
  simp [lead, h]

theorem lead_two {b : UInt8} (low : 0xC2 ≤ b.toNat) (high : b.toNat < 0xE0) :
    lead b = .inr (.inside (b.toNat - 0xC0) 0 0x80 0xBF) := by
  simp only [lead]
  rw [if_neg (by omega), if_neg (by omega), if_pos high]

theorem lead_three {b : UInt8} (low : 0xE0 ≤ b.toNat) (high : b.toNat < 0xF0) :
    lead b = .inr (.inside (b.toNat - 0xE0) 1 (if b.toNat = 0xE0 then 0xA0 else 0x80)
      (if b.toNat = 0xED then 0x9F else 0xBF)) := by
  simp only [lead]
  rw [if_neg (by omega), if_neg (by omega), if_neg (by omega)]
  split_ifs <;> first | omega | simp_all

theorem lead_four {b : UInt8} (low : 0xF0 ≤ b.toNat) (high : b.toNat < 0xF5) :
    lead b = .inr (.inside (b.toNat - 0xF0) 2 (if b.toNat = 0xF0 then 0x90 else 0x80)
      (if b.toNat = 0xF4 then 0x8F else 0xBF)) := by
  simp only [lead]
  rw [if_neg (by omega), if_neg (by omega), if_neg (by omega), if_neg (by omega),
    if_neg (by omega), if_neg (by omega)]
  split_ifs <;> first | omega | simp_all

theorem lead_broken {b : UInt8} (low : 0x80 ≤ b.toNat)
    (out : b.toNat < 0xC2 ∨ 0xF5 ≤ b.toNat) : lead b = .inl none := by
  simp only [lead]
  rw [if_neg (by omega)]
  split_ifs <;> first | omega | rfl

/-- The octets `read` begin a character: whatever comes next in the ranges completes it. -/
def Leads (read : List UInt8) (acc low high : Nat) : Nat → Prop
  | 0 => 0x80 ≤ low ∧ ∀ b : UInt8, low ≤ b.toNat → b.toNat ≤ high →
      String.utf8EncodeChar (Char.ofNat (acc * 64 + b.toNat % 64)) = read ++ [b]
  | owed + 1 => 0x80 ≤ low ∧ ∀ b : UInt8, low ≤ b.toNat → b.toNat ≤ high →
      Leads (read ++ [b]) (acc * 64 + b.toNat % 64) 0x80 0xBF owed

theorem Leads.low {read : List UInt8} {acc low high owed : Nat}
    (h : Leads read acc low high owed) : 0x80 ≤ low := by
  cases owed <;> exact h.1

theorem leads_two {b : UInt8} (low : 0xC2 ≤ b.toNat) (high : b.toNat < 0xE0) :
    Leads [b] (b.toNat - 0xC0) 0x80 0xBF 0 := by
  refine ⟨Nat.le_refl _, fun t hl hh => ?_⟩
  have value : (Char.ofNat ((b.toNat - 0xC0) * 64 + t.toNat % 64)).toNat
      = (b.toNat - 0xC0) * 64 + t.toNat % 64 := toNat_charOfNat (Or.inl (by omega))
  rw [utf8EncodeChar_two (by omega) (by omega), value, eq_ofNat (b := b) (by omega),
    eq_ofNat (b := t) (by omega)]
  rfl

theorem leads_three {b : UInt8} (low : 0xE0 ≤ b.toNat) (high : b.toNat < 0xF0) :
    Leads [b] (b.toNat - 0xE0) (if b.toNat = 0xE0 then 0xA0 else 0x80)
      (if b.toNat = 0xED then 0x9F else 0xBF) 1 := by
  refine ⟨by split_ifs <;> omega, fun t hl hh => ⟨Nat.le_refl _, fun u ul uh => ?_⟩⟩
  have big : 0x800 ≤ ((b.toNat - 0xE0) * 64 + t.toNat % 64) * 64 + u.toNat % 64 := by
    split_ifs at hl hh <;> omega
  have value : (Char.ofNat (((b.toNat - 0xE0) * 64 + t.toNat % 64) * 64 + u.toNat % 64)).toNat
      = ((b.toNat - 0xE0) * 64 + t.toNat % 64) * 64 + u.toNat % 64 := by
    apply toNat_charOfNat
    -- after 0xED the second octet keeps below the surrogates
    simp only [Nat.isValidChar]
    split_ifs at hl hh <;> omega
  have small : 0x80 ≤ t.toNat ∧ t.toNat ≤ 0xBF := by split_ifs at hl hh <;> omega
  rw [utf8EncodeChar_three (by omega) (by omega), value, eq_ofNat (b := b) (by omega),
    eq_ofNat (b := t) (by omega), eq_ofNat (b := u) (by omega)]
  rfl

theorem leads_four {b : UInt8} (low : 0xF0 ≤ b.toNat) (high : b.toNat < 0xF5) :
    Leads [b] (b.toNat - 0xF0) (if b.toNat = 0xF0 then 0x90 else 0x80)
      (if b.toNat = 0xF4 then 0x8F else 0xBF) 2 := by
  refine ⟨by split_ifs <;> omega, fun t hl hh =>
    ⟨Nat.le_refl _, fun u ul uh => ⟨Nat.le_refl _, fun w wl wh => ?_⟩⟩⟩
  have small : 0x80 ≤ t.toNat ∧ t.toNat ≤ 0xBF := by split_ifs at hl hh <;> omega
  have big : 0x10 ≤ (b.toNat - 0xF0) * 64 + t.toNat % 64 := by split_ifs at hl hh <;> omega
  have bound : (b.toNat - 0xF0) * 64 + t.toNat % 64 < 0x110 := by split_ifs at hl hh <;> omega
  have value : (Char.ofNat ((((b.toNat - 0xF0) * 64 + t.toNat % 64) * 64 + u.toNat % 64) * 64
      + w.toNat % 64)).toNat
      = (((b.toNat - 0xF0) * 64 + t.toNat % 64) * 64 + u.toNat % 64) * 64 + w.toNat % 64 :=
    toNat_charOfNat (Or.inr ⟨by omega, by omega⟩)
  rw [utf8EncodeChar_four (by omega), value, eq_ofNat (b := b) (by omega),
    eq_ofNat (b := t) (by omega), eq_ofNat (b := u) (by omega), eq_ofNat (b := w) (by omega)]
  rfl

/-- What a first octet can be: a character of its own, the beginning of one, or neither. -/
theorem lead_cases (b : UInt8) :
    (b.toNat < 0x80 ∧ lead b = .inl (some (Char.ofNat b.toNat))) ∨
    (0x80 ≤ b.toNat ∧ lead b = .inl none) ∨
    ∃ acc owed low high, 0x80 ≤ b.toNat ∧ lead b = .inr (.inside acc owed low high) ∧
      Leads [b] acc low high owed := by
  by_cases one : b.toNat < 0x80
  · exact Or.inl ⟨one, lead_one one⟩
  have above : 0x80 ≤ b.toNat := by omega
  by_cases out : b.toNat < 0xC2 ∨ 0xF5 ≤ b.toNat
  · exact Or.inr (Or.inl ⟨above, lead_broken above out⟩)
  refine Or.inr (Or.inr ?_)
  by_cases two : b.toNat < 0xE0
  · exact ⟨_, _, _, _, above, lead_two (by omega) two, leads_two (by omega) two⟩
  by_cases three : b.toNat < 0xF0
  · exact ⟨_, _, _, _, above, lead_three (by omega) three, leads_three (by omega) three⟩
  · exact ⟨_, _, _, _, above, lead_four (by omega) (by omega), leads_four (by omega) (by omega)⟩

/-! ## Reading on -/

/-- The reader stands where the octets `read` of a character not yet complete have led it. -/
def Reader.Reached (read : List UInt8) : Reader → Prop
  | .between => read = []
  | .inside acc owed low high => Leads read acc low high owed

theorem reached_between : Reader.between.Reached [] :=
  rfl

/-- An octet between characters is one, is none, or begins one. -/
theorem begin_cases (b : UInt8) :
    (∃ c, Reader.begin b = ([some c], .between) ∧ String.utf8EncodeChar c = [b]) ∨
    Reader.begin b = ([none], .between) ∨
    ∃ next, Reader.begin b = ([], next) ∧ next ≠ .between ∧ next.Reached [b] := by
  rcases lead_cases b with ⟨small, lead⟩ | ⟨-, lead⟩ | ⟨acc, owed, low, high, -, lead, leads⟩
  · refine Or.inl ⟨Char.ofNat b.toNat, by simp [Reader.begin, lead], ?_⟩
    have value : (Char.ofNat b.toNat).toNat = b.toNat := toNat_charOfNat (Or.inl (by omega))
    rw [utf8EncodeChar_one (by omega), value, eq_ofNat (b := b) (by omega)]
  · exact Or.inr (Or.inl (by simp [Reader.begin, lead]))
  · exact Or.inr (Or.inr ⟨.inside acc owed low high, by simp [Reader.begin, lead], by simp, leads⟩)

/-- An octet inside a character completes it, leads on in it, or breaks it off and is read anew. -/
theorem step_inside_cases {read : List UInt8} {acc owed low high : Nat}
    (reached : Leads read acc low high owed) (b : UInt8) :
    (∃ c, (Reader.inside acc owed low high).step b = ([some c], .between) ∧
      String.utf8EncodeChar c = read ++ [b]) ∨
    (∃ next, (Reader.inside acc owed low high).step b = ([], next) ∧ next ≠ .between ∧
      next.Reached (read ++ [b])) ∨
    (Reader.inside acc owed low high).step b
      = (none :: (Reader.begin b).1, (Reader.begin b).2) := by
  by_cases fits : low ≤ b.toNat ∧ b.toNat ≤ high
  · cases owed with
    | zero => exact Or.inl ⟨_, by simp [Reader.step, fits], reached.2 b fits.1 fits.2⟩
    | succ owed =>
      exact Or.inr (Or.inl ⟨.inside (acc * 64 + b.toNat % 64) owed 0x80 0xBF,
        by simp [Reader.step, fits], by simp, reached.2 b fits.1 fits.2⟩)
  · exact Or.inr (Or.inr (by simp only [Reader.step, if_neg fits]))

/-- A character begun is never lost: it comes out, or the piece it stopped at does. -/
theorem run_inside_ne_nil {reader : Reader} (inside : reader ≠ .between) (octets : List UInt8) :
    reader.run octets ≠ [] := by
  induction octets generalizing reader with
  | nil =>
    cases reader with
    | between => exact absurd rfl inside
    | inside => simp [Reader.run, Reader.finish]
  | cons b rest ih =>
    cases reader with
    | between => exact absurd rfl inside
    | inside acc owed low high =>
      by_cases fits : low ≤ b.toNat ∧ b.toNat ≤ high
      · cases owed with
        | zero => simp [Reader.run, Reader.step, fits]
        | succ owed => simpa [Reader.run, Reader.step, fits] using ih (by simp)
      · simp [Reader.run, Reader.step, fits]

theorem run_between_eq_nil {octets : List UInt8} (h : Reader.run .between octets = []) :
    octets = [] := by
  cases octets with
  | nil => rfl
  | cons b rest =>
    simp only [Reader.run, Reader.step] at h
    rcases begin_cases b with ⟨c, one, -⟩ | none | ⟨next, on, inside, -⟩
    · simp [one] at h
    · simp [none] at h
    · rw [on] at h
      exact absurd h (run_inside_ne_nil inside rest)

/-! ## Characters in the reading and in the octets -/

/-- A character read off octets stands in them in one piece, and what comes after it is read as if
    nothing had come before.  A character read first stands first. -/
theorem exists_octets_of_run {octets : List UInt8} {c : Char} {after : List (Option Char)} :
    ∀ {read : List UInt8} {reader : Reader} {before : List (Option Char)}, reader.Reached read →
      reader.run octets = before ++ some c :: after →
      ∃ a b, read ++ octets = a ++ String.utf8EncodeChar c ++ b ∧ Reader.run .between b = after ∧
        (before = [] → a = []) := by
  induction octets with
  | nil =>
    intro read reader before reached run
    cases reader with
    | between => simp [Reader.run, Reader.finish] at run
    | inside =>
      cases before with
      | nil => simp [Reader.run, Reader.finish] at run
      | cons x before => simp [Reader.run, Reader.finish] at run
  | cons b rest ih =>
    -- what a piece read before leaves to the induction
    have later : ∀ {before : List (Option Char)},
        Reader.run .between rest = before ++ some c :: after →
        ∃ a b', rest = a ++ String.utf8EncodeChar c ++ b' ∧ Reader.run .between b' = after := by
      intro before run
      obtain ⟨a, b', whole, tail, -⟩ := ih reached_between run
      exact ⟨a, b', whole, tail⟩
    have between : ∀ {before : List (Option Char)},
        Reader.run .between (b :: rest) = before ++ some c :: after →
        ∃ a b', b :: rest = a ++ String.utf8EncodeChar c ++ b' ∧ Reader.run .between b' = after ∧
          (before = [] → a = []) := by
      intro before run
      simp only [Reader.run, Reader.step] at run
      rcases begin_cases b with ⟨d, one, octet⟩ | broken | ⟨next, on, -, reached⟩
      · rw [one] at run
        cases before with
        | nil =>
          obtain ⟨rfl, tail⟩ : d = c ∧ Reader.run .between rest = after := by simpa using run
          exact ⟨[], rest, by simp [octet], tail, fun _ => rfl⟩
        | cons x before =>
          obtain ⟨a, b', rfl, tail⟩ := later (List.cons.inj run).2
          exact ⟨b :: a, b', by simp, tail, by simp⟩
      · rw [broken] at run
        cases before with
        | nil => simp at run
        | cons x before =>
          obtain ⟨a, b', rfl, tail⟩ := later (List.cons.inj run).2
          exact ⟨b :: a, b', by simp, tail, by simp⟩
      · rw [on] at run
        exact ih reached run
    intro read reader before reached run
    cases reader with
    | between =>
      obtain rfl : read = [] := reached
      exact between run
    | inside acc owed low high =>
      simp only [Reader.run] at run
      rcases step_inside_cases reached b with ⟨d, one, octet⟩ | ⟨next, on, -, reached'⟩ | broken
      · rw [one] at run
        cases before with
        | nil =>
          obtain ⟨rfl, tail⟩ : d = c ∧ Reader.run .between rest = after := by simpa using run
          exact ⟨[], rest, by simp [octet], tail, fun _ => rfl⟩
        | cons x before =>
          obtain ⟨a, b', rfl, tail⟩ := later (List.cons.inj run).2
          exact ⟨read ++ b :: a, b', by simp, tail, by simp⟩
      · rw [on] at run
        simpa using ih reached' run
      · rw [broken] at run
        cases before with
        | nil => simp at run
        | cons x before =>
          -- the octet that broke the character off is read again, now between characters
          obtain ⟨a, b', whole, tail, -⟩ := between (List.cons.inj run).2
          exact ⟨read ++ a, b', by simp [whole], tail, by simp⟩

/-! ## Writing, then reading -/

theorem encode_cons (c : Char) (text : List Char) :
    encode (c :: text) = String.utf8EncodeChar c ++ encode text := by
  simp [encode]

theorem encode_append (a b : List Char) : encode (a ++ b) = encode a ++ encode b := by
  simp [encode]

theorem encodeString_append (s t : String) :
    encodeString (s ++ t) = encodeString s ++ encodeString t := by
  simp [encodeString, encode_append]

theorem toNat_ofNat_octet {n : Nat} (h : n < 256) : (UInt8.ofNat n).toNat = n := by
  simp [Nat.mod_eq_of_lt h]

theorem run_between_char {b : UInt8} {piece : Option Char} (h : lead b = .inl piece)
    (rest : List UInt8) :
    Reader.run .between (b :: rest) = piece :: Reader.run .between rest := by
  simp [Reader.run, Reader.step, Reader.begin, h]

theorem run_between_lead {b : UInt8} {next : Reader} (h : lead b = .inr next)
    (rest : List UInt8) : Reader.run .between (b :: rest) = next.run rest := by
  simp [Reader.run, Reader.step, Reader.begin, h]

theorem run_inside_last {b : UInt8} {acc low high : Nat} (fits : low ≤ b.toNat ∧ b.toNat ≤ high)
    (rest : List UInt8) :
    (Reader.inside acc 0 low high).run (b :: rest)
      = some (Char.ofNat (acc * 64 + b.toNat % 64)) :: Reader.run .between rest := by
  simp [Reader.run, Reader.step, fits]

theorem run_inside_more {b : UInt8} {acc owed low high : Nat}
    (fits : low ≤ b.toNat ∧ b.toNat ≤ high) (rest : List UInt8) :
    (Reader.inside acc (owed + 1) low high).run (b :: rest)
      = (Reader.inside (acc * 64 + b.toNat % 64) owed 0x80 0xBF).run rest := by
  simp [Reader.run, Reader.step, fits]

theorem run_encodeChar_two {c : Char} (low : 0x80 ≤ c.toNat) (high : c.toNat < 0x800)
    (rest : List UInt8) :
    Reader.run .between (String.utf8EncodeChar c ++ rest) = some c :: Reader.run .between rest := by
  have first := toNat_ofNat_octet (n := c.toNat / 64 + 0xC0) (by omega)
  have second := toNat_ofNat_octet (n := c.toNat % 64 + 0x80) (by omega)
  have value : (c.toNat / 64 + 0xC0 - 0xC0) * 64 + (c.toNat % 64 + 0x80) % 64 = c.toNat := by omega
  rw [utf8EncodeChar_two low high]
  simp only [List.cons_append, List.nil_append]
  rw [run_between_lead (lead_two (by omega) (by omega)), run_inside_last (by omega), first, second,
    value, Char.ofNat_toNat]

theorem run_encodeChar_three {c : Char} (low : 0x800 ≤ c.toNat) (high : c.toNat < 0x10000)
    (rest : List UInt8) :
    Reader.run .between (String.utf8EncodeChar c ++ rest) = some c :: Reader.run .between rest := by
  have first := toNat_ofNat_octet (n := c.toNat / 4096 + 0xE0) (by omega)
  have second := toNat_ofNat_octet (n := c.toNat / 64 % 64 + 0x80) (by omega)
  have third := toNat_ofNat_octet (n := c.toNat % 64 + 0x80) (by omega)
  have value : ((c.toNat / 4096 + 0xE0 - 0xE0) * 64 + (c.toNat / 64 % 64 + 0x80) % 64) * 64
      + (c.toNat % 64 + 0x80) % 64 = c.toNat := by omega
  -- between 0xD800 and 0xDFFF there is no character
  have surrogates : c.toNat < 0xD800 ∨ 0xDFFF < c.toNat := by
    rcases c.valid with h | h
    · exact Or.inl h
    · exact Or.inr h.1
  rw [utf8EncodeChar_three low high]
  simp only [List.cons_append, List.nil_append]
  rw [run_between_lead (lead_three (by omega) (by omega)),
    run_inside_more (by split_ifs <;> omega), run_inside_last (by omega), first, second, third,
    value, Char.ofNat_toNat]

theorem run_encodeChar_four {c : Char} (low : 0x10000 ≤ c.toNat) (rest : List UInt8) :
    Reader.run .between (String.utf8EncodeChar c ++ rest) = some c :: Reader.run .between rest := by
  have high := toNat_lt_0x110000 c
  have first := toNat_ofNat_octet (n := c.toNat / 262144 + 0xF0) (by omega)
  have second := toNat_ofNat_octet (n := c.toNat / 4096 % 64 + 0x80) (by omega)
  have third := toNat_ofNat_octet (n := c.toNat / 64 % 64 + 0x80) (by omega)
  have fourth := toNat_ofNat_octet (n := c.toNat % 64 + 0x80) (by omega)
  have value : (((c.toNat / 262144 + 0xF0 - 0xF0) * 64 + (c.toNat / 4096 % 64 + 0x80) % 64) * 64
      + (c.toNat / 64 % 64 + 0x80) % 64) * 64 + (c.toNat % 64 + 0x80) % 64 = c.toNat := by omega
  rw [utf8EncodeChar_four low]
  simp only [List.cons_append, List.nil_append]
  rw [run_between_lead (lead_four (by omega) (by omega)),
    run_inside_more (by split_ifs <;> omega), run_inside_more (by omega),
    run_inside_last (by omega), first, second, third, fourth, value, Char.ofNat_toNat]

/-- The octets written for a character are read as that character. -/
theorem run_encodeChar (c : Char) (rest : List UInt8) :
    Reader.run .between (String.utf8EncodeChar c ++ rest) = some c :: Reader.run .between rest := by
  by_cases one : c.toNat < 0x80
  · have octet := toNat_ofNat_octet (n := c.toNat) (by omega)
    rw [utf8EncodeChar_one one, List.cons_append, run_between_char (lead_one (by omega)), octet,
      Char.ofNat_toNat]
    rfl
  by_cases two : c.toNat < 0x800
  · exact run_encodeChar_two (by omega) two rest
  by_cases three : c.toNat < 0x10000
  · exact run_encodeChar_three (by omega) three rest
  · exact run_encodeChar_four (by omega) rest

theorem run_encode (text : List Char) (rest : List UInt8) :
    Reader.run .between (encode text ++ rest) = text.map some ++ Reader.run .between rest := by
  induction text with
  | nil => rfl
  | cons c text ih => simp [encode_cons, run_encodeChar, ih]

theorem pieces_encode (text : List Char) : pieces (encode text) = text.map some := by
  simpa [pieces, Reader.run, Reader.finish] using run_encode text []

theorem decodeLossy_encode (text : List Char) : decodeLossy (encode text) = text := by
  simp [decodeLossy, pieces_encode, Function.comp_def]

theorem eq_encode_of_pieces {octets : List UInt8} {text : List Char}
    (h : pieces octets = text.map some) : octets = encode text := by
  induction text generalizing octets with
  | nil => exact run_between_eq_nil h
  | cons c text ih =>
    have read : Reader.run .between octets = [] ++ some c :: text.map some := h
    obtain ⟨a, b, whole, tail, first⟩ := exists_octets_of_run reached_between read
    obtain rfl := first rfl
    rw [encode_cons, ← ih tail]
    simpa using whole

theorem mapM_id_eq_some {pieces : List (Option Char)} {text : List Char} :
    pieces.mapM id = some text ↔ pieces = text.map some := by
  induction pieces generalizing text with
  | nil => cases text <;> simp
  | cons piece pieces ih =>
    cases piece with
    | none => cases text <;> simp
    | some c =>
      cases text with
      | nil => simp [Option.bind_eq_some_iff]
      | cons d text =>
        simp only [List.mapM_cons, id, Option.bind_eq_bind, Option.bind_some,
          Option.bind_eq_some_iff, ih, Option.pure_def, Option.some.injEq, List.cons.injEq,
          List.map_cons]
        constructor
        · rintro ⟨text', rfl, rfl, rfl⟩
          exact ⟨rfl, rfl⟩
        · rintro ⟨rfl, rfl⟩
          exact ⟨text, rfl, rfl, rfl⟩

/-- **Octets are text exactly when they are the writing of it.** -/
theorem decode?_eq_some_iff {octets : List UInt8} {text : List Char} :
    decode? octets = some text ↔ octets = encode text := by
  rw [decode?, mapM_id_eq_some]
  constructor
  · exact eq_encode_of_pieces
  · rintro rfl
    exact pieces_encode text

/-! ## ASCII among anything -/

/-- An octet below 0x80 is never part of a longer character: what comes before it is read as if it
    ended there, what comes after it as if it began there. -/
theorem run_append_ascii {b : UInt8} (ascii : b.toNat < 0x80) (rest octets : List UInt8) :
    ∀ {read : List UInt8} {reader : Reader}, reader.Reached read →
      reader.run (octets ++ b :: rest)
        = reader.run octets ++ some (Char.ofNat b.toNat) :: Reader.run .between rest := by
  have fresh : Reader.begin b = ([some (Char.ofNat b.toNat)], .between) := by
    simp [Reader.begin, lead_one ascii]
  induction octets with
  | nil =>
    intro read reader reached
    cases reader with
    | between => simp [Reader.run, Reader.step, Reader.finish, fresh]
    | inside acc owed low high =>
      -- an ASCII octet is below every continuation octet, so the character breaks off
      have broken : ¬(low ≤ b.toNat ∧ b.toNat ≤ high) := by
        have := reached.low
        omega
      simp [Reader.run, Reader.step, Reader.finish, fresh, if_neg broken]
  | cons o octets ih =>
    have between : Reader.run .between (o :: octets ++ b :: rest)
        = Reader.run .between (o :: octets)
          ++ some (Char.ofNat b.toNat) :: Reader.run .between rest := by
      simp only [List.cons_append, Reader.run, Reader.step, List.append_assoc]
      rcases begin_cases o with ⟨c, one, -⟩ | broken | ⟨next, on, -, reached⟩
      · rw [one, ih reached_between]
      · rw [broken, ih reached_between]
      · rw [on, ih reached]
    intro read reader reached
    -- inside a character an octet ends it, goes on with it, or breaks it off
    cases reader with
    | between => exact between
    | inside acc owed low high =>
      simp only [List.cons_append, Reader.run, List.append_assoc]
      rcases step_inside_cases reached o with ⟨c, one, -⟩ | ⟨next, on, -, reached'⟩ | broken
      · rw [one, ih reached_between]
      · rw [on, ih reached']
      · rw [broken]
        simpa [Reader.run, Reader.step] using between

theorem decodeLossy_append_ascii {b : UInt8} (ascii : b.toNat < 0x80) (before after : List UInt8) :
    decodeLossy (before ++ b :: after)
      = decodeLossy before ++ Char.ofNat b.toNat :: decodeLossy after := by
  simp [decodeLossy, pieces, run_append_ascii ascii after before reached_between]

theorem decodeLossy_append_encode {c : Char} (ascii : c.toNat < 0x80) (before : List UInt8)
    (text : List Char) :
    decodeLossy (before ++ encode (c :: text)) = decodeLossy before ++ c :: text := by
  have octet := toNat_ofNat_octet (n := c.toNat) (by omega)
  rw [encode_cons, utf8EncodeChar_one ascii, List.singleton_append,
    decodeLossy_append_ascii (by omega), octet, Char.ofNat_toNat, decodeLossy_encode]

theorem lineFeed_mem_of_encode {text : List Char} (mem : 0x0A ∈ encode text) : '\n' ∈ text := by
  obtain ⟨a, b, whole⟩ := List.append_of_mem mem
  rw [← decodeLossy_encode text, whole, decodeLossy_append_ascii (by decide)]
  exact List.mem_append_right _ List.mem_cons_self

/-- A character that stands in the reading, and is not the mark for a broken piece, stands in the
    octets. -/
theorem exists_octets_of_decodeLossy {octets : List UInt8} {c : Char} {before after : List Char}
    (sound : c ≠ '\uFFFD') (h : decodeLossy octets = before ++ c :: after) :
    ∃ a b, octets = a ++ String.utf8EncodeChar c ++ b ∧ decodeLossy b = after ∧
      (before = [] → a = []) := by
  obtain ⟨p, q, whole, rfl, hq⟩ := List.map_eq_append_iff.mp h
  obtain ⟨piece, q, rfl, hc, rfl⟩ := List.map_eq_cons_iff.mp hq
  obtain rfl : piece = some c := by
    cases piece with
    | none => exact absurd hc.symm sound
    | some d => exact congrArg some hc
  obtain ⟨a, b, split, tail, first⟩ := exists_octets_of_run reached_between whole
  refine ⟨a, b, split, by rw [decodeLossy, pieces, tail], fun empty => first ?_⟩
  simpa using empty

theorem exists_octets_of_decodeLossy_eq_append {octets : List UInt8} {text after : List Char}
    (sound : '\uFFFD' ∉ text) (h : decodeLossy octets = text ++ after) :
    ∃ b, octets = encode text ++ b ∧ decodeLossy b = after := by
  induction text generalizing octets with
  | nil => exact ⟨octets, rfl, h⟩
  | cons c text ih =>
    rw [List.mem_cons, not_or] at sound
    have read : decodeLossy octets = [] ++ c :: (text ++ after) := h
    obtain ⟨a, b, split, tail, first⟩ := exists_octets_of_decodeLossy (Ne.symm sound.1) read
    obtain rfl := first rfl
    obtain ⟨rest, rfl, after⟩ := ih sound.2 tail
    exact ⟨rest, by simp [split, encode_cons], after⟩

/-- **A text that stands in the reading stands in the octets**, unless a broken piece shows in it. -/
theorem stands_of_decodeLossy {octets : List UInt8} {before text after : List Char}
    (sound : '\uFFFD' ∉ text) (h : decodeLossy octets = before ++ text ++ after) :
    ∃ a b, octets = a ++ encode text ++ b := by
  cases text with
  | nil => exact ⟨[], octets, rfl⟩
  | cons c text =>
    rw [List.mem_cons, not_or] at sound
    obtain ⟨a, b, split, tail, -⟩ := exists_octets_of_decodeLossy (Ne.symm sound.1)
      (by simpa using h : decodeLossy octets = before ++ c :: (text ++ after))
    obtain ⟨rest, rfl, -⟩ := exists_octets_of_decodeLossy_eq_append sound.2 tail
    exact ⟨a, rest, by simp [split, encode_cons]⟩

/-! ## Sizes -/

theorem length_le_length_encode (text : List Char) : text.length ≤ (encode text).length := by
  induction text with
  | nil => simp
  | cons c text ih =>
    have some : 0 < (String.utf8EncodeChar c).length := by
      rw [String.length_utf8EncodeChar]
      exact c.utf8Size_pos
    rw [encode_cons, List.length_append, List.length_cons]
    omega

theorem size_eq_length (s : String) : size s = (encodeString s).length := by
  have octets : (String.ofList s.toList).toByteArray = (encodeString s).toByteArray :=
    String.toByteArray_ofList
  rw [String.ofList_toList] at octets
  rw [size, ← String.size_toByteArray, octets]
  simp

end LanguageClient.Utf8
