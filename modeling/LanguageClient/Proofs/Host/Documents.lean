import LanguageClient.Host.Basic
import Mathlib.Data.List.Nodup
/-!
# The open documents of the host

The host keeps its documents in a list.  The equations here say what is open under each URI after a
document was opened, edited or closed, and no URI is ever there twice (`Host.Distinct`).
-/

namespace LanguageClient

namespace Host

variable {h h' : Host} {d : Document} {uri other : String}

theorem find?_insertDocument (d : Document) (docs : List Document) (uri : String) :
    (insertDocument d docs).find? (·.uri == uri) =
      if d.uri = uri then some d else docs.find? (·.uri == uri) := by
  induction docs with
  | nil => by_cases same : d.uri = uri <;> simp [insertDocument, same]
  | cons e rest ih =>
    by_cases here : e.uri = d.uri
    · by_cases same : d.uri = uri <;> simp [insertDocument, here, same]
    · by_cases there : e.uri = uri
      · subst there
        simp [insertDocument, here, Ne.symm here]
      · simp [insertDocument, here, there, ih]

@[simp] theorem document?_open (h : Host) (d : Document) (uri : String) :
    (h.open d).document? uri = if d.uri = uri then some d else h.document? uri :=
  find?_insertDocument d h.documents uri

@[simp] theorem document?_close (h : Host) (uri other : String) :
    (h.close uri).2.document? other = if uri = other then none else h.document? other := by
  have both : ∀ docs : List Document, (docs.filter (·.uri ≠ uri)).find? (·.uri == other) =
      if uri = other then none else docs.find? (·.uri == other) := by
    intro docs
    induction docs with
    | nil => simp
    | cons e rest ih =>
      by_cases here : e.uri = uri
      · by_cases same : uri = other
        · simp [same]
        · simpa [here, same] using ih
      · by_cases there : e.uri = other
        · subst there
          simp [here, Ne.symm here]
        · simpa [here, there] using ih
  exact both h.documents

theorem uri_of_document? (there : h.document? uri = some d) : d.uri = uri := by
  simpa using List.find?_some there

/-- An edit takes the place of an open document. -/
theorem edit_cases {text : String} {change : DocumentChange} (edit : h.edit uri text = some (change, h')) :
    ∃ d, h.document? uri = some d ∧
      change = { uri, version := d.version + 1, changes := [.full text], text } ∧
      ∀ other, h'.document? other = if uri = other then some (edited d text) else h.document? other := by
  obtain ⟨d, there, same⟩ := Option.bind_eq_some_iff.mp edit
  obtain ⟨rfl, rfl⟩ := by simpa using same
  obtain rfl := uri_of_document? there
  exact ⟨d, there, rfl, find?_insertDocument (edited d text) h.documents⟩

/-! ## No document twice -/

/-- No two documents are open under the same URI. -/
def Distinct (docs : List Document) : Prop :=
  (docs.map (·.uri)).Nodup

theorem uris_insertDocument (d : Document) (docs : List Document) :
    (insertDocument d docs).map (·.uri) =
      if d.uri ∈ docs.map (·.uri) then docs.map (·.uri) else docs.map (·.uri) ++ [d.uri] := by
  induction docs with
  | nil => rfl
  | cons e rest ih =>
    by_cases here : e.uri = d.uri
    · simp [insertDocument, here]
    · have there : ¬ d.uri = e.uri := fun same => here same.symm
      rw [insertDocument, if_neg here, List.map_cons, ih]
      by_cases among : d.uri ∈ rest.map (·.uri)
      · rw [if_pos among, if_pos (by simpa using Or.inr (by simpa using among)), List.map_cons]
      · rw [if_neg among, if_neg (by simpa [there] using among)]
        rfl

theorem Distinct.insertDocument {docs : List Document} (distinct : Distinct docs) (d : Document) :
    Distinct (insertDocument d docs) := by
  unfold Distinct at *
  rw [uris_insertDocument]
  split
  · exact distinct
  · rename_i fresh
    exact List.nodup_append.mpr ⟨distinct, List.nodup_singleton _, by
      intro uri among uri' last same
      rw [List.mem_singleton.mp last] at same
      exact fresh (same ▸ among)⟩

theorem Distinct.filter {docs : List Document} (distinct : Distinct docs) (p : Document → Bool) :
    Distinct (docs.filter p) :=
  distinct.sublist (List.filter_sublist.map _)

theorem Distinct.tail {docs : List Document} (distinct : Distinct (d :: docs)) :
    Distinct docs ∧ ∀ e ∈ docs, e.uri ≠ d.uri := by
  obtain ⟨fresh, rest⟩ := List.nodup_cons.mp distinct
  exact ⟨rest, fun e among same => fresh (List.mem_map.mpr ⟨e, among, same⟩)⟩

end Host

end LanguageClient
