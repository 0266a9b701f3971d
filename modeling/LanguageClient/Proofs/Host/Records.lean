import LanguageClient.Host.Basic
/-!
# What lasts of a host

A host keeps a record of what it was asked and told, and the user answers one question after another.
Sessions add to the record, and use up answers, but they never look at the record (`unrecorded`), and
all else of the host is only changed by the editor (`lasting`).
-/

namespace LanguageClient

namespace Host

/-- The host without its record of what it was asked and told. -/
def unrecorded (h : Host) : Host :=
  { h with diagnostics := [], errors := [], asked := [], log := [] }

/-- What no session changes of the host: not its record, and not how the user will answer. -/
def lasting (h : Host) : Host :=
  { h.unrecorded with answers := [], mode := .never }

/-- The user decides how he will answer what he is asked next. -/
def decided (h : Host) (answers : List (Option String)) (mode : PromptMode) : Host :=
  { h with answers, mode }

variable {h h' : Host}

/-- A question is put on record, and uses up an answer of the user. -/
theorem prompt_eq (h : Host) (message : String) (actions : List String) :
    (h.prompt message actions).2 = { h with
      asked := h.asked ++ [.prompt message actions]
      answers := (h.prompt message actions).2.answers
      mode := (h.prompt message actions).2.mode } := by
  unfold prompt
  simp only
  split
  · rfl
  · split <;> rfl

/-- A question is answered whatever is on record. -/
theorem prompt_unrecorded (h : Host) (message : String) (actions : List String) :
    (h.unrecorded.prompt message actions).1 = (h.prompt message actions).1 ∧
    (h.unrecorded.prompt message actions).2.unrecorded = (h.prompt message actions).2.unrecorded := by
  unfold prompt
  cases answers : h.answers with
  | cons answer rest => simp [unrecorded, answers]
  | nil =>
    cases mode : h.mode with
    | interactive lines => cases lines <;> simp [unrecorded, answers, mode]
    | _ => simp [unrecorded, answers, mode]

theorem lasting_prompt (h : Host) (message : String) (actions : List String) :
    (h.prompt message actions).2.lasting = h.lasting := by
  rw [h.prompt_eq]
  rfl

/-- Hosts of which the same lasts differ in their records only, as soon as the users agree. -/
theorem unrecorded_decided (same : h'.lasting = h.lasting) :
    (h'.decided h.answers h.mode).unrecorded = h.unrecorded := by
  cases h
  cases h'
  simp_all [lasting, unrecorded, decided]

theorem lasting_of_unrecorded (same : h'.unrecorded = h.unrecorded) : h'.lasting = h.lasting := by
  rw [lasting, same, lasting]

theorem documents_of_lasting (same : h'.lasting = h.lasting) : h'.documents = h.documents :=
  (congrArg Host.documents same : h'.lasting.documents = h.lasting.documents)

/-- What an edit makes of a host. -/
theorem lasting_edit (h : Host) (uri text : String) :
    (((h.edit uri text).map (·.2)).getD h).lasting =
      ((h.lasting.edit uri text).map (·.2)).getD h.lasting := by
  have same : h.lasting.document? uri = h.document? uri := rfl
  unfold edit
  rw [same]
  cases h.document? uri <;> rfl

theorem unrecorded_edit (h : Host) (uri text : String) :
    (((h.unrecorded.edit uri text).map (·.2)).getD h.unrecorded).unrecorded =
      (((h.edit uri text).map (·.2)).getD h).unrecorded := by
  have same : h.unrecorded.document? uri = h.document? uri := rfl
  unfold edit
  rw [same]
  cases h.document? uri <;> rfl

end Host

end LanguageClient
