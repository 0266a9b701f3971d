import LanguageClient.Proofs.Session.Registry
import Mathlib.Data.List.Induction
/-!
# What is registered for a document

A registry is what has been done to it, one thing after another (`CapabilityRegistry.ofOps`).  What is
registered at the end are the registrations that have survived: nothing came later that names their
id, and nothing took all away.

A registration is for every document unless it has a list of filters; then one of the items has to
stand for a filter whose conditions the document meets.
-/

namespace LanguageClient

namespace DocumentFilter

variable {f : DocumentFilter} {languageId uri : String}

/-- A document meets the conditions that a filter names. -/
structure Meets (f : DocumentFilter) (languageId uri : String) : Prop where
  language : ∀ named, f.language = some named → languageId = named
  scheme : ∀ named, f.scheme = some named → Uri.scheme? uri = some named
  pattern : ∀ named, f.pattern = some named → ∃ glob path,
    Glob.parse? named {} = some glob ∧ Uri.toPath? uri = some path ∧ glob.isMatch path = true

theorem patternSelects_iff {pattern : String} :
    patternSelects pattern uri = true ↔ ∃ glob path,
      Glob.parse? pattern {} = some glob ∧ Uri.toPath? uri = some path ∧ glob.isMatch path = true := by
  rw [patternSelects]
  constructor
  · intro selects
    split at selects
    · next glob path parsed place => exact ⟨glob, path, parsed, place, selects⟩
    · cases selects
  · rintro ⟨glob, path, parsed, place, selects⟩
    rw [parsed, place]
    exact selects

theorem selects_iff : f.selects languageId uri = true ↔ f.Meets languageId uri := by
  simp only [selects, Bool.and_eq_true, Option.all_eq_true, beq_iff_eq, patternSelects_iff]
  constructor
  · rintro ⟨⟨language, scheme⟩, pattern⟩
    exact ⟨fun named set => (language named set).symm, scheme, pattern⟩
  · intro meets
    exact ⟨⟨fun named set => (meets.language named set).symm, meets.scheme⟩, meets.pattern⟩

theorem not_meets_of_unreadable {pattern : String} (named : f.pattern = some pattern)
    (unreadable : Glob.parse? pattern {} = none) : ¬ f.Meets languageId uri := by
  intro meets
  obtain ⟨glob, path, parsed, -⟩ := meets.pattern pattern named
  rw [unreadable] at parsed
  cases parsed

end DocumentFilter

namespace DocumentSelector

/-- An item of a selector stands for a filter: a text for a language, anything else for what it can be
    read as. -/
inductive StandsFor : Json → DocumentFilter → Prop where
  | language (named : String) : StandsFor (.str named) { language := some named }
  | conditions (item : Json) (f : DocumentFilter) (other : ∀ text, item ≠ .str text)
      (read : (ofJson item : Decoded DocumentFilter) = .ok f) : StandsFor item f

theorem filterOfJson?_eq_some_iff {item : Json} {f : DocumentFilter} :
    filterOfJson? item = some f ↔ StandsFor item f := by
  constructor
  · intro stands
    unfold filterOfJson? at stands
    split at stands
    · cases stands
      exact .language _
    · next other =>
      split at stands
      · next read =>
        cases stands
        exact .conditions item f other read
      · cases stands
  · intro stands
    cases stands with
    | language named => rfl
    | conditions _ _ other read =>
      unfold filterOfJson?
      split
      · next text => exact absurd rfl (other text)
      · rw [read]

end DocumentSelector

namespace Registration

open DocumentSelector (StandsFor)

/-- A registration is for a document: it has no list of filters, or one of its items stands for a
    filter whose conditions the document meets. -/
def For (r : Registration) (languageId uri : String) : Prop :=
  ∀ items, r.registerOptions.bind (·.get? "documentSelector") = some (.arr items) →
    ∃ item ∈ items, ∃ f, StandsFor item f ∧ f.Meets languageId uri

theorem selects_iff {items : List Json} {languageId uri : String} :
    (DocumentSelector.mk (items.filterMap DocumentSelector.filterOfJson?)).selects languageId uri = true ↔
      ∃ item ∈ items, ∃ f, StandsFor item f ∧ f.Meets languageId uri := by
  simp only [DocumentSelector.selects, List.any_eq_true, List.mem_filterMap,
    DocumentSelector.filterOfJson?_eq_some_iff, DocumentFilter.selects_iff]
  constructor
  · rintro ⟨f, ⟨item, among, stands⟩, meets⟩
    exact ⟨item, among, f, stands, meets⟩
  · rintro ⟨item, among, f, stands, meets⟩
    exact ⟨f, ⟨item, among, stands⟩, meets⟩

theorem appliesTo_iff {r : Registration} {languageId uri : String} :
    r.appliesTo languageId uri = true ↔ r.For languageId uri := by
  rw [appliesTo, selector?, For]
  cases r.registerOptions.bind (·.get? "documentSelector") with
  | none => simp
  | some v =>
    cases v with
    | arr items =>
      have list : DocumentSelector.ofJson? (.arr items)
          = some ⟨items.filterMap DocumentSelector.filterOfJson?⟩ := rfl
      rw [Option.bind_some, list, Option.all_some, selects_iff]
      constructor
      · intro applies items' same
        cases same
        exact applies
      · intro applies
        exact applies items rfl
    | _ => simp [DocumentSelector.ofJson?, Json.items?]

end Registration

/-! ## Histories -/

/-- Something that is done to a registry. -/
inductive RegistryOp where
  | made (change : RegistryChange)
  | clear
  deriving DecidableEq

namespace RegistryOp

def apply : RegistryOp → CapabilityRegistry → CapabilityRegistry
  | made change, c => change.apply c
  | clear, c => c.clear

/-- Something is said of an id. -/
def Names (id : String) : RegistryOp → Prop
  | made (.register registrations) => ∃ r ∈ registrations, r.id = id
  | made (.unregister unregistrations) => ∃ u ∈ unregistrations, u.id = id
  | clear => True

/-- A registration is made, and is the last one for its id among those made with it. -/
def Makes (r : Registration) (op : RegistryOp) : Prop :=
  ∃ first rest, op = made (.register (first ++ r :: rest)) ∧ ∀ q ∈ rest, q.id ≠ r.id

end RegistryOp

/-- A registration was made, and nothing was said of its id since. -/
def Survives (ops : List RegistryOp) (r : Registration) : Prop :=
  ∃ earlier op later, ops = earlier ++ op :: later ∧ op.Makes r ∧ ∀ op' ∈ later, ¬ op'.Names r.id

variable {ops : List RegistryOp} {op : RegistryOp} {r : Registration} {id : String}

theorem not_survives_nil : ¬ Survives [] r := by
  rintro ⟨earlier, op, later, split, -⟩
  cases earlier <;> cases split

theorem survives_concat :
    Survives (ops ++ [op]) r ↔ op.Makes r ∨ ¬ op.Names r.id ∧ Survives ops r := by
  constructor
  · rintro ⟨earlier, op', later, split, makes, silent⟩
    -- The operation that makes it is the last one, or the last one is among those that are silent.
    rcases List.eq_nil_or_concat later with rfl | ⟨later, last, rfl⟩
    · obtain ⟨rfl, same⟩ := List.append_inj' split rfl
      cases same
      exact Or.inl makes
    · rw [List.concat_eq_append] at split silent
      rw [← List.cons_append, ← List.append_assoc] at split
      obtain ⟨rfl, same⟩ := List.append_inj' split rfl
      cases same
      refine Or.inr ⟨silent op (by simp), earlier, op', later, rfl, makes, ?_⟩
      intro other among
      exact silent other (List.mem_append_left _ among)
  · rintro (makes | ⟨silent, earlier, op', later, rfl, makes, silent'⟩)
    · exact ⟨ops, op, [], rfl, makes, fun _ among => absurd among List.not_mem_nil⟩
    · refine ⟨earlier, op', later ++ [op], by simp, makes, ?_⟩
      intro other among
      rcases List.mem_append.mp among with before | last
      · exact silent' other before
      · rw [List.mem_singleton] at last
        rw [last]
        exact silent

namespace CapabilityRegistry

/-- The registry after all that was done to it. -/
def ofOps (ops : List RegistryOp) : CapabilityRegistry :=
  ops.foldl (fun c op => op.apply c) {}

theorem ofOps_concat (ops : List RegistryOp) (op : RegistryOp) :
    ofOps (ops ++ [op]) = op.apply (ofOps ops) := by
  rw [ofOps, List.foldl_append]
  rfl

theorem find?_reverse_eq_some_iff {rs : List Registration} :
    rs.reverse.find? (·.id = id) = some r ↔
      r.id = id ∧ ∃ first rest, rs = first ++ r :: rest ∧ ∀ q ∈ rest, q.id ≠ r.id := by
  rw [List.find?_eq_some_iff_append]
  constructor
  · rintro ⟨named, rest, first, split, apart⟩
    have named : r.id = id := by simpa using named
    refine ⟨named, first.reverse, rest.reverse, ?_, ?_⟩
    · have whole := congrArg List.reverse split
      simpa using whole
    · intro q among
      have other := apart q (List.mem_reverse.mp among)
      rw [named]
      simpa using other
  · rintro ⟨named, first, rest, rfl, apart⟩
    refine ⟨by simpa using named, rest.reverse, first.reverse, by simp, ?_⟩
    intro q among
    have other := apart q (List.mem_reverse.mp among)
    rw [named] at other
    simpa using other

theorem get?_register_iff {c : CapabilityRegistry} {rs : List Registration} :
    (c.register rs).get? id = some r ↔
      (r.id = id ∧ (RegistryOp.made (.register rs)).Makes r) ∨
      ¬ (RegistryOp.made (.register rs)).Names id ∧ c.get? id = some r := by
  have makes : (RegistryOp.made (.register rs)).Makes r ↔
      ∃ first rest, rs = first ++ r :: rest ∧ ∀ q ∈ rest, q.id ≠ r.id := by
    simp [RegistryOp.Makes]
  have silent : rs.reverse.find? (·.id = id) = none ↔
      ¬ (RegistryOp.made (.register rs)).Names id := by
    simp [RegistryOp.Names]
  rw [get?_register, makes, ← find?_reverse_eq_some_iff, ← silent]
  cases last : rs.reverse.find? (·.id = id) <;> simp

theorem get?_unregister_iff {c : CapabilityRegistry} {us : List Unregistration} :
    (c.unregister us).get? id = some r ↔
      ¬ (RegistryOp.made (.unregister us)).Names id ∧ c.get? id = some r := by
  have named : us.any (·.id = id) = true ↔ (RegistryOp.made (.unregister us)).Names id := by
    simp [RegistryOp.Names]
  rw [get?_unregister, ← named]
  by_cases gone : us.any (·.id = id) = true
  · simp [gone]
  · rw [if_neg gone]
    simp [gone]

/-- What is registered under an id was registered by the last operation, or was before and the
    operation says nothing of the id. -/
theorem get?_apply_iff {c : CapabilityRegistry} :
    (op.apply c).get? id = some r ↔
      (r.id = id ∧ op.Makes r) ∨ ¬ op.Names id ∧ c.get? id = some r := by
  cases op with
  | made change =>
    cases change with
    | register registrations => exact get?_register_iff
    | unregister unregistrations =>
      have none : ¬ (RegistryOp.made (.unregister unregistrations)).Makes r := by
        rintro ⟨first, rest, same, -⟩
        cases same
      change (c.unregister unregistrations).get? id = some r ↔ _
      rw [get?_unregister_iff]
      simp [none]
  | clear =>
    constructor
    · intro found
      cases found
    · rintro (⟨-, first, rest, same, -⟩ | ⟨silent, -⟩)
      · cases same
      · exact absurd trivial silent

theorem get?_ofOps_iff : (ofOps ops).get? id = some r ↔ r.id = id ∧ Survives ops r := by
  induction ops using List.reverseRecOn with
  | nil =>
    constructor
    · intro found
      cases found
    · rintro ⟨-, survives⟩
      exact absurd survives not_survives_nil
  | append_singleton ops op ih =>
    rw [ofOps_concat, get?_apply_iff, ih, survives_concat]
    constructor
    · rintro (⟨rfl, makes⟩ | ⟨silent, rfl, survives⟩)
      · exact ⟨rfl, Or.inl makes⟩
      · exact ⟨rfl, Or.inr ⟨silent, survives⟩⟩
    · rintro ⟨rfl, makes | ⟨silent, survives⟩⟩
      · exact Or.inl ⟨rfl, makes⟩
      · exact Or.inr ⟨silent, rfl, survives⟩

theorem ordered_ofOps (ops : List RegistryOp) : (ofOps ops).Ordered := by
  induction ops using List.reverseRecOn with
  | nil => exact List.Pairwise.nil
  | append_singleton ops op ih =>
    rw [ofOps_concat]
    cases op with
    | made change => exact RegistryChange.ordered_apply change ih
    | clear => exact List.Pairwise.nil

theorem mem_ofOps_iff : r ∈ (ofOps ops).registrations ↔ Survives ops r := by
  rw [(ordered_ofOps ops).mem_iff, get?_ofOps_iff]
  constructor
  · exact And.right
  · intro survives
    exact ⟨rfl, survives⟩

theorem covers_ofOps_iff {method languageId uri : String} :
    (ofOps ops).covers method languageId uri = true ↔
      ∃ r, Survives ops r ∧ r.method = method ∧ r.For languageId uri := by
  simp only [covers, List.any_eq_true, Bool.and_eq_true, beq_iff_eq, mem_ofOps_iff,
    Registration.appliesTo_iff]

end CapabilityRegistry

end LanguageClient
