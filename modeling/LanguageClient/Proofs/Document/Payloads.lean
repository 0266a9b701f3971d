import LanguageClient.Document.Language
import LanguageClient.Proofs.Json.Faithful
/-!
# The JSON forms of positions, changes and documents

Positions, ranges, edits and changes are records.  A reason for a save is written as a number of its
own.  A version is written as a number, too, but one number stands for all versions that nobody
knows: what was read as a negative number is written as −1, which is read as no version again.
-/

namespace LanguageClient

/-! ## Places and changes -/

instance : Faithful Position :=
  .ofRecord (fun p => [.always "line" p.line, .always "character" p.character]) readAsRecord
    (fun _ => rfl) (fun _ => by simp)
    (.bind .field fun _ => .bind .field fun _ => .pure rfl)

instance : Faithful Range :=
  .ofRecord (fun r => [.always "start" r.start, .always "end" r.stop]) readAsRecord
    (fun _ => rfl) (fun _ => by simp)
    (.bind .field fun _ => .bind .field fun _ => .pure rfl)

instance : Faithful TextEdit :=
  .ofRecord (fun e => [.always "range" e.range, .always "newText" e.newText]) readAsRecord
    (fun _ => rfl) (fun _ => by simp)
    (.bind .field fun _ => .bind .field fun _ => .pure rfl)

instance : Faithful TextChange :=
  .ofRecord
    (fun c => [.present "range" c.range, .present "rangeLength" c.rangeLength,
      .always "text" c.text])
    readAsRecord (fun _ => congrArg Json.object (by simp)) (fun _ => by simp)
    (.bind .optional fun _ => .bind .optional fun _ => .bind .field fun _ => .pure rfl)

/-! ## Versions -/

namespace DocumentVersion

/-- The number that is written for a version that was read stands for that version. -/
theorem ofInt32_toInt32 (n : Int32) : ofInt32 (ofInt32 n).toInt32 = ofInt32 n := by
  by_cases negative : n < 0
  · have none : ofInt32 n = unknown := if_pos negative
    rw [none]
    rfl
  · have same : ofInt32 n = known n := if_neg negative
    rw [same]
    exact same

theorem exists_of_decode {v : Json} {version : DocumentVersion} (read : ofJson v = .ok version) :
    ∃ n, version = ofInt32 n := by
  change (ofJson v : Decoded Int32).map ofInt32 = _ at read
  cases number : (ofJson v : Decoded Int32) with
  | error e => rw [number] at read; cases read
  | ok n => rw [number] at read; cases read; exact ⟨n, rfl⟩

instance : Faithful DocumentVersion where
  reads_back _ read := by
    obtain ⟨n, rfl⟩ := exists_of_decode read
    change (ofJson (toJson (ofInt32 n).toInt32) : Decoded Int32).map ofInt32 = _
    rw [decode_code]
    exact congrArg Except.ok (ofInt32_toInt32 n)
  not_null _ _ := Json.noConfusion
  held {_ version} _ _ := Json.throughout_int.mpr (Faithful.code_fits version.toInt32)

end DocumentVersion

/-! ## Numbers that stand for a value -/

/-- A type whose values are written as small numbers, each as one of its own. -/
theorem Faithful.ofNumbered {α : Type} [Payload α] {number : α → Int} {of? : Int → Option α}
    {choices : String} (reads : ∀ v, (ofJson v : Decoded α) = readNumbered of? choices v)
    (writes : ∀ x : α, toJson x = .int (number x))
    (small : ∀ x, 0 ≤ number x ∧ number x ≤ 255) (back : ∀ x, of? (number x) = some x) :
    Faithful α := by
  refine ofNumber writes (fun x => ?_) fun x => ?_
  · have := small x
    constructor <;> omega
  · obtain ⟨n, same⟩ := Int.eq_ofNat_of_zero_le (small x).1
    have byte : (ofJson (.int (number x)) : Decoded UInt8) = .ok (UInt8.ofNat n) := by
      change (integerBetween 0 255 "u8" (.int (number x))).map _ = _
      rw [integerBetween_int _ (small x), same]
      rfl
    have kept : ((UInt8.ofNat n).toNat : Int) = number x := by
      have := (small x).2
      rw [UInt8.toNat_ofNat_of_lt' (show n < 256 by omega), same]
    rw [reads, writes, readNumbered, byte]
    simp only [kept, back]

instance : Faithful SaveReason :=
  .ofNumbered (fun _ => rfl) (fun _ => rfl) (fun x => by cases x <;> decide)
    (fun x => by cases x <;> rfl)

/-! ## Filters -/

instance : Faithful DocumentFilter :=
  .ofRecord
    (fun f => [.present "language" f.language, .present "scheme" f.scheme,
      .present "pattern" f.pattern])
    readAsRecord (fun _ => congrArg Json.object (by simp)) (fun _ => by simp)
    (.bind .defaulted_none fun _ => .bind .defaulted_none fun _ =>
      .bind .defaulted_none fun _ => .pure rfl)

end LanguageClient
