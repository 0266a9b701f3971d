import LanguageClient.Proofs.Host.Editing
/-!
# Documents that are opened again

An editor may open a document that is open already, which puts a new text in its place and may lower its
version.  A reader that has the document takes no notice (`DocumentSelector.read`), and passes over the
edits that follow until one of them gets past the edition that it has.  So a reader that has a document
has it as it is, unless the document was opened again and nothing has got past the reader's edition
since (`Emits.inStep`); and an edit is too old for a reader only then (`Emits.reopened_of_older`).
-/

namespace LanguageClient.Host

variable {docs docs' : String → Option Document} {e : DocumentEvent} {events : List DocumentEvent}
  {uri : String} {selector : DocumentSelector} {first edition : Option Edition} {kept : Edition}
  {may : (String → Option Document) → DocumentEvent → Prop}

/-- A reader that has a document has it as it is. -/
def InStep (edition : Option Edition) (document? : Option Document) : Prop :=
  edition = none ∨ edition = document?.map (·.edition)

/-- A reader begins in step with the documents that a selector chooses. -/
theorem inStep_editionOf (selector : DocumentSelector) (document? : Option Document) :
    InStep (selector.editionOf document?) document? := by
  cases document? with
  | none => exact Or.inl rfl
  | some d =>
    rw [DocumentSelector.editionOf_some]
    split
    · exact Or.inr rfl
    · exact Or.inl rfl

/-- An event of a document that a reader passes over who has an edition of it. -/
inductive PassedOver (kept : Edition) : DocumentEvent → Prop where
  | opened (d : Document) : PassedOver kept (.opened d)
  | changed (c : DocumentChange) (older : c.version < kept.version) : PassedOver kept (.changed c)

/-- A document was opened again while a reader had an edition of it, and since then the reader has passed
    over all that happened to it: it was opened once more, or given an older version. -/
def Reopened (selector : DocumentSelector) (uri : String) (first : Option Edition)
    (events : List DocumentEvent) (kept : Edition) : Prop :=
  ∃ before d after, events = before ++ .opened d :: after ∧ d.uri = uri ∧
    selector.readAll uri first before = some kept ∧ ∀ e ∈ after, e.uri = uri → PassedOver kept e

theorem PassedOver.read (passed : PassedOver kept e) :
    selector.read uri (some kept) e = some kept := by
  cases passed with
  | opened d => simp [DocumentSelector.read]
  | changed c older => simp [DocumentSelector.read, older]

/-- The reader still has the edition. -/
theorem Reopened.readAll (reopened : Reopened selector uri first events kept) :
    selector.readAll uri first events = some kept := by
  obtain ⟨before, d, after, rfl, -, had, passed⟩ := reopened
  rw [DocumentSelector.readAll_append, had, DocumentSelector.readAll_cons,
    (PassedOver.opened d).read]
  clear had
  induction after with
  | nil => rfl
  | cons e after ih =>
    have same : selector.read uri (some kept) e = some kept := by
      by_cases about : e.uri = uri
      · exact (passed e (by simp) about).read
      · exact DocumentSelector.read_other _ _ about
    rw [DocumentSelector.readAll_cons, same]
    exact ih fun e among => passed e (by simp [among])

theorem Reopened.concat (reopened : Reopened selector uri first events kept)
    (passed : e.uri = uri → PassedOver kept e) :
    Reopened selector uri first (events ++ [e]) kept := by
  obtain ⟨before, d, after, rfl, about, had, all⟩ := reopened
  refine ⟨before, d, after ++ [e], by simp, about, had, fun e' among about' => ?_⟩
  rcases List.mem_append.mp among with among | among
  · exact all e' among about'
  · obtain rfl := List.mem_singleton.mp among
    exact passed about'

theorem Edits.inStep (edits : Edits docs e docs')
    (before : InStep (selector.readAll uri first events) (docs uri) ∨
      ∃ kept, Reopened selector uri first events kept) :
    InStep (selector.readAll uri first (events ++ [e])) (docs' uri) ∨
      ∃ kept, Reopened selector uri first (events ++ [e]) kept := by
  by_cases about : e.uri = uri
  · subst about
    cases edits with
    | opened d =>
      rcases before with inStep | ⟨kept, reopened⟩
      · cases had : selector.readAll (DocumentEvent.opened d).uri first events with
        | none =>
          -- the document is new to the reader
          refine Or.inl ?_
          rw [DocumentSelector.readAll_append, had]
          simp only [DocumentEvent.uri, DocumentSelector.readAll_cons, DocumentSelector.readAll_nil,
            DocumentSelector.read, true_and, Function.update_self]
          split
          · exact Or.inr rfl
          · exact Or.inl rfl
        | some kept => exact Or.inr ⟨kept, events, d, [], rfl, rfl, had, by simp⟩
      · exact Or.inr ⟨kept, reopened.concat fun _ => .opened d⟩
    | changed d text there bound =>
      have there : docs (DocumentEvent.changed ⟨d.uri, d.version + 1, [.full text], text⟩).uri =
        some d := there
      cases had : selector.readAll (DocumentEvent.changed ⟨d.uri, d.version + 1, [.full text],
          text⟩).uri first events with
      | none =>
        refine Or.inl (Or.inl ?_)
        rw [DocumentSelector.readAll_append, had]
        rfl
      | some kept =>
        by_cases older : d.version + 1 < kept.version
        · -- an older version comes only after the document was opened again
          rcases before with inStep | ⟨kept', reopened⟩
          · have same : kept = d.edition := by simpa [InStep, had, there] using inStep
            subst same
            exact absurd older (Int32.not_lt.mpr (Int32.le_of_lt (lt_next_version bound)))
          · obtain rfl : kept' = kept := Option.some.inj (reopened.readAll.symm.trans had)
            exact Or.inr ⟨kept', reopened.concat fun _ => .changed _ older⟩
        · refine Or.inl (Or.inr ?_)
          rw [DocumentSelector.readAll_append, had]
          simp [DocumentEvent.uri, DocumentSelector.read, older, edited, Document.edition,
            DocumentChange.edition]
    | closed closed =>
      refine Or.inl (Or.inl ?_)
      simp [DocumentEvent.uri, DocumentSelector.read]
  · rw [edits.other about, DocumentSelector.readAll_append]
    rcases before with inStep | ⟨kept, reopened⟩
    · refine Or.inl ?_
      rwa [DocumentSelector.readAll_cons, DocumentSelector.readAll_nil,
        DocumentSelector.read_other _ _ about]
    · exact Or.inr ⟨kept, reopened.concat fun same => absurd same about⟩

/-- **Openings again.**  Whoever begins in step and reads the events of some edits stays in step, or the
    document was opened again and nothing has got past the reader's edition since. -/
theorem Emits.inStep (emits : Emits may docs events docs') (selector : DocumentSelector)
    (start : InStep first (docs uri)) :
    InStep (selector.readAll uri first events) (docs' uri) ∨
      ∃ kept, Reopened selector uri first events kept := by
  induction emits with
  | nil => exact Or.inl start
  | concat earlier between after last before allowed edits ih => exact edits.inStep ih

/-- Some edits can be taken apart at each of their events. -/
theorem Emits.split {before after : List DocumentEvent}
    (emits : Emits may docs (before ++ e :: after) docs') :
    ∃ between between', Emits may docs before between ∧ Edits between e between' := by
  generalize whole : before ++ e :: after = all at emits
  induction emits generalizing after with
  | nil => simp at whole
  | concat earlier between rest last first allowed edits ih =>
    rcases List.eq_nil_or_concat after with rfl | ⟨after, final, rfl⟩
    · obtain ⟨rfl, rfl⟩ : before = earlier ∧ e = last := by
        have split := List.append_inj' whole rfl
        simpa using split
      exact ⟨between, rest, first, edits⟩
    · rw [List.concat_eq_append, ← List.cons_append, ← List.append_assoc] at whole
      exact ih (List.append_inj' whole rfl).1

/-- An edit is too old for a reader only after the document was opened again. -/
theorem Emits.reopened_of_older {before after : List DocumentEvent} {c : DocumentChange}
    (emits : Emits may docs (before ++ .changed c :: after) docs') (start : InStep first (docs c.uri))
    (had : selector.readAll c.uri first before = some kept) (older : c.version < kept.version) :
    Reopened selector c.uri first before kept := by
  obtain ⟨between, between', earlier, edits⟩ := emits.split
  rcases earlier.inStep selector start with inStep | ⟨kept', reopened⟩
  · cases edits with
    | changed d text there bound =>
      have same : kept = d.edition := by simpa [InStep, had, there] using inStep
      subst same
      exact absurd older (Int32.not_lt.mpr (Int32.le_of_lt (lt_next_version bound)))
  · obtain rfl : kept' = kept := Option.some.inj (reopened.readAll.symm.trans had)
    exact reopened

end LanguageClient.Host
