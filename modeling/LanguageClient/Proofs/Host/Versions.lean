import LanguageClient.Proofs.Host.Editing
import LanguageClient.Proofs.Protocol.Payloads
/-!
# Versions of open documents

An edit takes the next version of a document.  It is larger, but for the last of all versions, which the
first one follows (`lt_next_version_iff`).

An open document is written with its version as a number, and every negative number is read as no version
at all: so what is read of a document has the document's version exactly if that is not negative
(`TextDocumentItem.read_ofDocument`).
-/

namespace LanguageClient

/-- A version is followed by a larger one, unless it is the last. -/
theorem lt_next_version_iff {version : Int32} :
    version < version + 1 ↔ version ≠ Int32.maxValue := by
  constructor
  · rintro grows rfl
    exact absurd grows (by decide)
  · exact fun other => lt_next_version (Int32.lt_of_le_of_ne (Int32.le_maxValue version) other)

/-- The version after one that is not negative is not negative, unless that was the last. -/
theorem next_version_nonneg {version : Int32} (nonneg : 0 ≤ version) (bound : version < Int32.maxValue) :
    0 ≤ version + 1 :=
  Int32.le_of_lt (Int32.lt_of_le_of_lt nonneg (lt_next_version bound))

namespace DocumentVersion

/-- A number is read as a version of its own exactly if it is not negative. -/
theorem ofInt32_eq_known_iff {n : Int32} : ofInt32 n = known n ↔ 0 ≤ n := by
  unfold ofInt32
  split
  · rename_i negative
    exact ⟨by simp, fun nonneg => absurd negative (Int32.not_lt.mpr nonneg)⟩
  · rename_i nonneg
    exact ⟨fun _ => Int32.not_lt.mp nonneg, fun _ => rfl⟩

theorem read_known (n : Int32) :
    (ofJson (toJson (known n)) : Decoded DocumentVersion) = .ok (.ofInt32 n) := by
  change (ofJson (toJson n) : Decoded Int32).map ofInt32 = _
  rw [decode_code]
  rfl

end DocumentVersion

namespace TextDocumentItem

open RecordReader

/-- What is read of an open document as it is written: all of it, but for a negative version. -/
theorem read_ofDocument (d : Document) : (ofJson (toJson (ofDocument d)) : Decoded TextDocumentItem) =
    .ok { ofDocument d with version := .ofInt32 d.version } := by
  change Json.readRecord _ _ (.object _) = _
  rw [readRecord_object, run_bind (field_named rfl rfl), run_bind (field_named rfl rfl),
    run_bind (field_named rfl (DocumentVersion.read_known d.version)), run_bind (field_named rfl rfl)]
  rfl

/-- An open document is written with the number that stands for no version exactly if that is its
    version. -/
theorem written_unknown_iff (d : Document) :
    (toJson (ofDocument d)).get? "version" = some (toJson DocumentVersion.unknown) ↔
      d.version = DocumentVersion.unknownNumber := by
  change some (Json.int d.version.toInt) = some (Json.int DocumentVersion.unknownNumber.toInt) ↔ _
  rw [Option.some.injEq, Json.int.injEq, Int32.toInt_inj]

end TextDocumentItem

namespace Host

variable {h h' : Host} {d : Document}

/-- A file is opened at version 1. -/
theorem openFile_cases {path : String} (opened : h.openFile path = .ok (d, h')) :
    d.version = 1 ∧ h' = h.open d := by
  simp only [openFile] at opened
  cases text : h.fileText (Path.join h.root path) with
  | error e => rw [text] at opened; cases opened
  | ok text' => rw [text] at opened; cases opened; exact ⟨rfl, rfl⟩

/-- Of documents with different URIs each is found by its URI. -/
theorem document?_of_mem (distinct : Distinct h.documents) (among : d ∈ h.documents) :
    h.document? d.uri = some d := by
  unfold document?
  generalize h.documents = docs at distinct among
  induction docs with
  | nil => cases among
  | cons e docs ih =>
    obtain ⟨distinct, others⟩ := Distinct.tail distinct
    rcases List.mem_cons.mp among with rfl | among
    · exact List.find?_cons_of_pos (by simp)
    · rw [List.find?_cons_of_neg (by simpa using (others d among).symm), ih distinct among]

end Host

end LanguageClient
