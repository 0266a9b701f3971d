import LanguageClient.Proofs.Document.Edition
import LanguageClient.Proofs.Host.Documents
import Mathlib.Logic.Function.Basic
/-!
# An editor and who follows it

An editor opens documents, edits and closes them, and each time gives out an event (`Edits`).  As long as
no document is opened while it is open (`Anew`), whoever reads the events has the editions of the open
documents that a selector chooses (`Emits.readAll`).

A reader may also begin with the documents as they are and then get events that are older than that:
openings of documents that it has, edits that it has or that are too old, and closings of documents that
were opened again.  It still ends with the documents as they are (`Emits.readAll_late`).  What makes this
work is that a document is not opened while it is open, and that versions grow.
-/

namespace LanguageClient

/-- The edition of an open document that a selector chooses. -/
def DocumentSelector.editionOf (selector : DocumentSelector) (document? : Option Document) :
    Option Edition :=
  (document?.filter fun d => selector.selects d.languageId d.uri).map (·.edition)

@[simp] theorem DocumentSelector.editionOf_none (selector : DocumentSelector) :
    selector.editionOf none = none := rfl

theorem DocumentSelector.editionOf_some (selector : DocumentSelector) (d : Document) :
    selector.editionOf (some d) =
      if selector.selects d.languageId d.uri = true then some d.edition else none := by
  cases chosen : selector.selects d.languageId d.uri <;> simp [editionOf, Option.filter, chosen]

/-- A version that is not the last one grows. -/
theorem lt_next_version {version : Int32} (bound : version < Int32.maxValue) :
    version < version + 1 := by
  have last : Int32.maxValue.toInt = 2147483647 := rfl
  have one : (1 : Int32).toInt = 1 := rfl
  have first := version.le_toInt
  rw [Int32.lt_iff_toInt_lt, last] at bound
  rw [Int32.lt_iff_toInt_lt, Int32.toInt_add, one, Int.bmod_eq_of_le (by omega) (by omega)]
  omega

namespace Host

/-! ## Editing -/

/-- One edit of the documents, and the event that it gives out. -/
inductive Edits (docs : String → Option Document) :
    DocumentEvent → (String → Option Document) → Prop where
  | opened (d : Document) : Edits docs (.opened d) (Function.update docs d.uri (some d))
  | changed (d : Document) (text : String) (there : docs d.uri = some d)
      (bound : d.version < Int32.maxValue) :
      Edits docs (.changed ⟨d.uri, d.version + 1, [.full text], text⟩)
        (Function.update docs d.uri (some (edited d text)))
  | closed (uri : String) : Edits docs (.closed uri) (Function.update docs uri none)

/-- Only what is not open is opened. -/
def Anew (docs : String → Option Document) (e : DocumentEvent) : Prop :=
  ∀ d, e = .opened d → docs d.uri = none

/-- Some edits, one after another and such as they may be made, and the events that they give out. -/
inductive Emits (may : (String → Option Document) → DocumentEvent → Prop)
    (docs : String → Option Document) : List DocumentEvent → (String → Option Document) → Prop where
  | nil : Emits may docs [] docs
  | concat (events : List DocumentEvent) (between after : String → Option Document)
      (e : DocumentEvent) (before : Emits may docs events between) (allowed : may between e)
      (edits : Edits between e after) : Emits may docs (events ++ [e]) after

variable {docs docs' : String → Option Document} {e : DocumentEvent} {events : List DocumentEvent}
  {uri : String} {selector : DocumentSelector}

section Runs

variable {may : (String → Option Document) → DocumentEvent → Prop}

theorem Emits.append {more : List DocumentEvent} {docs'' : String → Option Document}
    (emits : Emits may docs events docs') (next : Emits may docs' more docs'') :
    Emits may docs (events ++ more) docs'' := by
  induction next with
  | nil => simpa using emits
  | concat more between after e before allowed edits ih =>
    rw [← List.append_assoc]
    exact .concat _ between after e ih allowed edits

/-- The events after the first one are given out by whoever has made the first edit. -/
theorem Emits.tail (emits : Emits may docs (e :: events) docs') :
    ∃ between, Emits may between events docs' := by
  generalize whole : e :: events = all at emits
  induction emits generalizing events with
  | nil => simp at whole
  | concat earlier between after last before allowed edits ih =>
    cases earlier with
    | nil =>
      obtain ⟨rfl, rfl⟩ : e = last ∧ events = [] := by simpa using whole
      exact ⟨after, .nil⟩
    | cons first rest =>
      obtain ⟨rfl, rfl⟩ : e = first ∧ events = rest ++ [last] := by simpa using whole
      obtain ⟨start, emits⟩ := ih rfl
      exact ⟨start, .concat rest between after last emits allowed edits⟩

/-- Every edit gives the whole text. -/
theorem Emits.whole (emits : Emits may docs events docs') : ∀ e ∈ events, e.Whole := by
  induction emits with
  | nil => simp
  | concat earlier between after last before allowed edits ih =>
    intro e among
    rcases List.mem_append.mp among with among | among
    · exact ih e among
    · obtain rfl := List.mem_singleton.mp among
      cases edits <;> trivial

end Runs

/-! ## Following -/

/-- An edit of another document leaves this one. -/
theorem Edits.other (edits : Edits docs e docs') (other : e.uri ≠ uri) : docs' uri = docs uri := by
  cases edits <;> exact Function.update_of_ne (Ne.symm other) _ _

/-- Whoever reads the event of an edit has the edition that the edit leads to. -/
theorem Edits.read (edits : Edits docs e docs') (anew : Anew docs e) (uri : String) :
    selector.read uri (selector.editionOf (docs uri)) e = selector.editionOf (docs' uri) := by
  by_cases about : e.uri = uri
  · subst about
    cases edits with
    | opened d =>
      have fresh : docs (DocumentEvent.opened d).uri = none := anew d rfl
      rw [fresh]
      simp [DocumentEvent.uri, DocumentSelector.read, DocumentSelector.editionOf_some]
    | changed d text there bound =>
      have there : docs (DocumentEvent.changed ⟨d.uri, d.version + 1, [.full text], text⟩).uri =
        some d := there
      have newer : ¬ d.version + 1 < d.version :=
        Int32.not_lt.mpr (Int32.le_of_lt (lt_next_version bound))
      rw [there]
      cases chosen : selector.selects d.languageId d.uri <;>
        simp [DocumentEvent.uri, DocumentSelector.read, DocumentSelector.editionOf_some, chosen,
          edited, Document.edition, DocumentChange.edition, newer]
    | closed closed => simp [DocumentEvent.uri, DocumentSelector.read]
  · rw [edits.other about, DocumentSelector.read_other _ _ about]

/-- Whoever reads the events of some edits has the editions that they lead to. -/
theorem Emits.readAll (emits : Emits Anew docs events docs') (uri : String) :
    selector.readAll uri (selector.editionOf (docs uri)) events = selector.editionOf (docs' uri) := by
  induction emits with
  | nil => rfl
  | concat earlier between after last before anew edits ih => simp [ih, edits.read anew]

/-! ## Events that come late -/

/-- An event is nothing new to whoever has a document as it is. -/
inductive Past (d : Document) : DocumentEvent → Prop where
  | opened (first : Document) (same : first.languageId = d.languageId) : Past d (.opened first)
  | changed (c : DocumentChange) (older : c.version < d.version ∨ c.edition = d.edition) :
      Past d (.changed c)

theorem Past.read {d : Document} (past : Past d e) (about : e.uri = d.uri) :
    selector.read d.uri (selector.editionOf (some d)) e = selector.editionOf (some d) := by
  cases past with
  | opened first same =>
    have about : first.uri = d.uri := about
    refine if_neg ?_
    rintro ⟨none, -, chosen⟩
    rw [same, about] at chosen
    simp [DocumentSelector.editionOf_some, chosen] at none
  | changed c older =>
    have about : c.uri = d.uri := about
    cases chosen : selector.selects d.languageId d.uri with
    | false => simp [DocumentSelector.editionOf_some, chosen, DocumentSelector.read]
    | true =>
      rcases older with older | same
      · simp [DocumentSelector.editionOf_some, chosen, DocumentSelector.read, Document.edition, older]
      · simp [DocumentSelector.editionOf_some, chosen, DocumentSelector.read, same]

/-- What is nothing new stays so when the document is edited. -/
theorem Past.edited {d : Document} (past : Past d e) (bound : d.version < Int32.maxValue)
    (text : String) : Past (edited d text) e := by
  have grows := lt_next_version bound
  cases past with
  | opened first same => exact .opened first same
  | changed c older =>
    refine .changed c (Or.inl ?_)
    rcases older with older | same
    · exact Int32.lt_trans older grows
    · have version : c.version = d.version := congrArg Edition.version same
      exact version ▸ grows

/-- Events come late to whoever has a document as it is: they lead to it from anywhere, or each of them
    is nothing new. -/
def Late (selector : DocumentSelector) (uri : String) (events : List DocumentEvent)
    (document? : Option Document) : Prop :=
  (∀ edition, selector.readAll uri edition events = selector.editionOf document?) ∨
    ∀ e ∈ events, e.uri = uri → ∃ d, document? = some d ∧ Past d e

theorem Late.concat (late : Late selector uri events (docs uri)) (edits : Edits docs e docs')
    (anew : Anew docs e) :
    Late selector uri (events ++ [e]) (docs' uri) := by
  rcases late with anywhere | past
  · refine Or.inl fun edition => ?_
    rw [DocumentSelector.readAll_append, anywhere]
    exact edits.read anew uri
  · by_cases about : e.uri = uri
    · subst about
      cases edits with
      | opened d =>
        -- nothing was about the document, for it was not open
        refine Or.inr fun e among about => ?_
        rcases List.mem_append.mp among with among | among
        · obtain ⟨d', there, -⟩ := past e among about
          exact absurd ((anew d rfl).symm.trans there) (by simp)
        · obtain rfl := List.mem_singleton.mp among
          exact ⟨d, by simp [DocumentEvent.uri], .opened d rfl⟩
      | changed d text there bound =>
        refine Or.inr fun e among about => ⟨edited d text, by simp [DocumentEvent.uri], ?_⟩
        rcases List.mem_append.mp among with among | among
        · obtain ⟨d', there', past⟩ := past e among about
          obtain rfl : d = d' := Option.some.inj (there.symm.trans there')
          exact past.edited bound text
        · obtain rfl := List.mem_singleton.mp among
          exact .changed _ (Or.inr rfl)
      | closed closed =>
        exact Or.inl fun edition => by simp [DocumentSelector.read, DocumentEvent.uri]
    · refine Or.inr fun e' among about' => ?_
      rw [edits.other about]
      rcases List.mem_append.mp among with among | among
      · exact past e' among about'
      · obtain rfl := List.mem_singleton.mp among
        exact absurd about' about

theorem Emits.late (emits : Emits Anew docs events docs') (selector : DocumentSelector) (uri : String) :
    Late selector uri events (docs' uri) := by
  induction emits with
  | nil => exact Or.inr (by simp)
  | concat earlier between after last before anew edits ih => exact ih.concat edits anew

/-- **Old events.**  Whoever has the documents as they are and reads the events of the edits that have
    led to them still has the documents as they are. -/
theorem Emits.readAll_late (emits : Emits Anew docs events docs') (uri : String)
    (filed : ∀ d, docs' uri = some d → d.uri = uri) :
    selector.readAll uri (selector.editionOf (docs' uri)) events = selector.editionOf (docs' uri) := by
  rcases emits.late selector uri with anywhere | past
  · exact anywhere _
  · clear emits
    induction events with
    | nil => rfl
    | cons e events ih =>
      have same : selector.read uri (selector.editionOf (docs' uri)) e =
          selector.editionOf (docs' uri) := by
        by_cases about : e.uri = uri
        · obtain ⟨d, there, old⟩ := past e (by simp) about
          obtain rfl := filed d there
          rw [there]
          exact old.read about
        · exact DocumentSelector.read_other _ _ about
      rw [DocumentSelector.readAll_cons, same]
      exact ih fun e among => past e (by simp [among])

/-! ## Openings -/

/-- Whoever reads of nothing but other documents keeps this one. -/
theorem readAll_other (edition : Option Edition) (other : ∀ e ∈ events, e.uri ≠ uri) :
    selector.readAll uri edition events = edition := by
  induction events with
  | nil => rfl
  | cons e events ih =>
    rw [DocumentSelector.readAll_cons, DocumentSelector.read_other _ _ (other e (by simp))]
    exact ih fun e among => other e (by simp [among])

/-- Whoever is told of all documents of a list has the editions of those that a selector chooses. -/
theorem readAll_opened {docs : List Document} (distinct : Distinct docs) (uri : String) :
    selector.readAll uri none (docs.map .opened) =
      selector.editionOf (docs.find? (·.uri == uri)) := by
  induction docs with
  | nil => rfl
  | cons d docs ih =>
    obtain ⟨distinct, others⟩ := Distinct.tail distinct
    rw [List.map_cons, DocumentSelector.readAll_cons]
    by_cases about : d.uri = uri
    · subst about
      have rest : ∀ e ∈ docs.map DocumentEvent.opened, e.uri ≠ d.uri := by
        simpa [DocumentEvent.uri] using others
      rw [readAll_other _ rest]
      simp [DocumentSelector.read, DocumentSelector.editionOf_some]
    · rw [DocumentSelector.read_other (e := .opened d) _ _ about, ih distinct]
      simp [about]

end Host

end LanguageClient
