import Mathlib.Data.List.Forall2
import LanguageClient.Command.Query
import LanguageClient.Proofs.Command.Diagnostics
import LanguageClient.Proofs.Json.Faithful
/-!
# Places as they are reported

Lines and characters are counted from zero on the wire and from one in a report, and both reports count
in 32 bits: a query takes the last 32 bits of a number and then adds one, a run adds one to a number that
was read as one of 32 bits.  So a number is shown exactly as long as it is below 2³² - 1, and not beyond
(`OneBased`).

`Query.Shows` compares the places that are reported of a query's result, item by item, with what the
items tell (`Query.Tells`); `Diagnostic.Starts` says where a diagnostic starts on the wire.  Both come
together in `places_shown`.
-/

namespace LanguageClient

/-! ## Counting from one -/

/-- A number that was counted from zero is shown counted from one, as far as that fits into 32 bits. -/
structure OneBased (n shown : Nat) : Prop where
  exact : n + 1 < UInt32.size → shown = n + 1
  wrapped : UInt32.size ≤ n + 1 → shown = (n + 1) % UInt32.size

theorem oneBased_of_mod {n shown : Nat} (mod : shown = (n + 1) % UInt32.size) : OneBased n shown :=
  ⟨fun fits => mod.trans (Nat.mod_eq_of_lt fits), fun _ => mod⟩

/-- A printed value has a line and a column that show where something starts. -/
structure ShowsStart (printed : Json) (line character : Nat) : Prop where
  line : ∃ n : Nat, printed.get? "line" = some (.int n) ∧ OneBased line n
  column : ∃ n : Nat, printed.get? "column" = some (.int n) ∧ OneBased character n

/-! ## Diagnostics -/

theorem word_of_decode {v : Json} {n : UInt32} (read : ofJson v = .ok n) : v = .int n.toNat := by
  change (integerBetween 0 4294967295 "u32" v).map _ = _ at read
  cases v with
  | int i =>
    rw [integerBetween] at read
    split at read
    · rename_i inside
      obtain ⟨m, rfl⟩ := Int.eq_ofNat_of_zero_le inside.1
      cases read
      have small : m < 4294967296 := by omega
      exact congrArg (fun k : Nat => Json.int k) (UInt32.toNat_ofNat_of_lt' small).symm
    · cases read
  | _ => cases read

namespace Diagnostic

/-- Where a diagnostic starts, on the wire. -/
def Starts (v : Json) (line character : Nat) : Prop :=
  ∃ range start, v.member? "range" 0 = some range ∧ range.member? "start" 0 = some start ∧
    start.member? "line" 0 = some (.int line) ∧ start.member? "character" 1 = some (.int character)

theorem position_of_decode {v : Json} {p : Position} (read : ofJson v = .ok p) :
    v.member? "line" 0 = some (.int p.line.toNat) ∧
    v.member? "character" 1 = some (.int p.character.toNat) := by
  obtain ⟨s, s', left, run⟩ := RecordReader.exists_left read
  obtain ⟨line, s₁, first, run⟩ := RecordReader.exists_of_run_bind run
  obtain ⟨⟨w, there, decoded⟩, left⟩ := left.field first
  obtain ⟨character, s₂, second, run⟩ := RecordReader.exists_of_run_bind run
  obtain ⟨⟨w', there', decoded'⟩, -⟩ := left.field second
  cases run
  rw [there, there', word_of_decode decoded, word_of_decode decoded']
  exact ⟨rfl, rfl⟩

theorem starts_of_decode {v : Json} {d : Diagnostic} (read : ofJson v = .ok d) :
    Starts v d.range.start.line.toNat d.range.start.character.toNat := by
  obtain ⟨s, s', left, run⟩ := RecordReader.exists_left read
  obtain ⟨range, s₁, first, run⟩ := RecordReader.exists_of_run_bind run
  obtain ⟨⟨w, there, decoded⟩, -⟩ := left.field first
  -- the other members do not tell where the diagnostic is
  obtain ⟨severity, s₂, -, run⟩ := RecordReader.exists_of_run_bind run
  obtain ⟨code, s₃, -, run⟩ := RecordReader.exists_of_run_bind run
  obtain ⟨source, s₄, -, run⟩ := RecordReader.exists_of_run_bind run
  obtain ⟨message, s₅, -, run⟩ := RecordReader.exists_of_run_bind run
  cases run
  obtain ⟨r, r', left, run⟩ := RecordReader.exists_left decoded
  obtain ⟨start, r₁, first, run⟩ := RecordReader.exists_of_run_bind run
  obtain ⟨⟨w', there', decoded'⟩, -⟩ := left.field first
  obtain ⟨stop, r₂, -, run⟩ := RecordReader.exists_of_run_bind run
  cases run
  obtain ⟨line, character⟩ := position_of_decode decoded'
  exact ⟨w, w', there, there', line, character⟩

/-- What is printed of a diagnostic that was read shows where it starts on the wire. -/
theorem showsStart_diagnosticJson (d : Diagnostic) :
    ShowsStart (Run.diagnosticJson d) d.range.start.line.toNat d.range.start.character.toNat := by
  have found : ∀ name value, name ≠ "severity" →
      [("line", .int (d.range.start.line + 1).toNat), ("column", .int (d.range.start.character + 1).toNat),
        ("message", .str d.message)].reverse.lookup name = some value →
      (Run.diagnosticJson d).get? name = some value := by
    intro name value other there
    change (Json.sortMembers _).lookup name = _
    rw [Json.lookup_sortMembers_reverse, List.reverse_append, List.lookup_append, there]
    cases d.severity with
    | none => rfl
    | some severity =>
      have absent : List.lookup name [("severity", toJson (Run.severityText severity))] = none := by
        rw [Json.lookup_cons_ite, if_neg other]
        rfl
      exact congrArg (·.or (some value)) absent
  exact ⟨⟨_, found "line" _ (by decide) rfl, oneBased_of_mod (UInt32.toNat_add _ _)⟩,
    ⟨_, found "column" _ (by decide) rfl, oneBased_of_mod (UInt32.toNat_add _ _)⟩⟩

theorem starts_of_items {sent : List Json} {ds : List Diagnostic}
    (read : sent.mapM ofJson = (.ok ds : Decoded (List Diagnostic))) : List.Forall₂ (fun w d =>
      Starts w d.range.start.line.toNat d.range.start.character.toNat) sent ds := by
  induction sent generalizing ds with
  | nil => cases read; exact .nil
  | cons w sent ih =>
    obtain ⟨d, ds, rfl, first, rest⟩ := Faithful.exists_of_mapM read
    exact .cons (starts_of_decode first) (ih rest)

/-- The diagnostics that are read of what a server publishes, one for each that it sends. -/
theorem starts_of_published {v : Json} {p : PublishDiagnosticsParams} (read : ofJson v = .ok p) :
    ∃ sent, v.member? "diagnostics" 2 = some (.arr sent) ∧ List.Forall₂ (fun w d =>
      Starts w d.range.start.line.toNat d.range.start.character.toNat) sent p.diagnostics := by
  obtain ⟨s, s', left, run⟩ := RecordReader.exists_left read
  obtain ⟨uri, s₁, first, run⟩ := RecordReader.exists_of_run_bind run
  obtain ⟨-, left⟩ := left.field first
  obtain ⟨version, s₂, second, run⟩ := RecordReader.exists_of_run_bind run
  have left := left.defaulted second
  obtain ⟨diagnostics, s₃, third, run⟩ := RecordReader.exists_of_run_bind run
  obtain ⟨⟨w, there, decoded⟩, -⟩ := left.field third
  cases run
  obtain ⟨sent, rfl, decoded⟩ := Faithful.exists_of_list decoded
  exact ⟨sent, there, starts_of_items decoded⟩

end Diagnostic

/-! ## Places of a result -/

namespace Query

open Report (displayUri)

variable {root uri : String} {item v w : Json} {line character : Nat}

/-- The value of the first of two members, or of the second when the first is not there. -/
def HasEither (v : Json) (first second : String) (w : Json) : Prop :=
  v.get? first = some w ∨ v.get? first = none ∧ v.get? second = some w

/-- An item of a result tells a place: a document, and a line and a character in it. -/
structure Tells (item : Json) (uri : String) (line character : Nat) : Prop where
  document : HasEither item "uri" "targetUri" (.str uri)
  start : ∃ range start, HasEither item "range" "targetSelectionRange" range ∧
    range.get? "start" = some start ∧ start.get? "line" = some (.int line) ∧
    start.get? "character" = some (.int character)

def itemsOf : Json → List Json
  | .arr items => items
  | .obj members => [.obj members]
  | _ => []

/-- What is reported of some items: of each that tells a place the document by its name, and the line and
    the character counted from one; nothing of the others. -/
inductive Shows (root : String) : List Json → List Json → Prop where
  | nil : Shows root [] []
  | shown {item printed : Json} {items shown : List Json} (uri : String) (line character : Nat)
      (tells : Tells item uri line character)
      (path : printed.get? "path" = some (.str (displayUri root uri)))
      (start : ShowsStart printed line character) (rest : Shows root items shown) :
      Shows root (item :: items) (printed :: shown)
  | omitted {item : Json} {items shown : List Json}
      (silent : ∀ uri line character, ¬ Tells item uri line character) (rest : Shows root items shown) :
      Shows root (item :: items) shown

theorem either?_eq_some_iff {first second : String} :
    either? v first second = some w ↔ HasEither v first second w := by
  unfold either? HasEither
  cases v.get? first <;> simp

theorem toNat_ofNat_add_one (n : Nat) : (UInt32.ofNat n + 1).toNat = (n + 1) % UInt32.size := by
  rw [UInt32.toNat_add, UInt32.toNat_ofNat', Nat.mod_add_mod]
  rfl

theorem oneBased?_eq_some_iff {n : UInt32} :
    oneBased? v = some n ↔ ∃ m : Nat, v = .int m ∧ n.toNat = (m + 1) % UInt32.size := by
  constructor
  · intro found
    unfold oneBased? at found
    split at found
    · rename_i i
      split at found
      · rename_i nonneg
        obtain ⟨m, rfl⟩ := Int.eq_ofNat_of_zero_le nonneg
        obtain rfl := Option.some.inj found
        exact ⟨m, rfl, toNat_ofNat_add_one m⟩
      · cases found
    · cases found
  · rintro ⟨m, rfl, same⟩
    have read : oneBased? (.int m) = some (UInt32.ofNat m + 1) := by simp [oneBased?]
    rw [read, Option.some.injEq, ← UInt32.toNat_inj, toNat_ofNat_add_one, same]

theorem text?_eq_some_iff {text : String} : v.text? = some text ↔ v = .str text := by
  cases v <;> simp [Json.text?]

/-- An item is reported as a place exactly if it tells one. -/
theorem place?_eq_some_iff {p : Place} : place? root item = some p ↔ ∃ uri line character,
    Tells item uri line character ∧ p.path = displayUri root uri ∧
    p.line.toNat = (line + 1) % UInt32.size ∧ p.column.toNat = (character + 1) % UInt32.size := by
  simp only [place?, Option.bind_eq_bind, Option.bind_eq_some_iff, Option.pure_def, Option.some.injEq,
    either?_eq_some_iff, oneBased?_eq_some_iff, text?_eq_some_iff]
  constructor
  · rintro ⟨_, document, uri, rfl, range, hasRange, start, hasStart, _, hasLine, _, ⟨line, rfl, lineShown⟩,
      _, hasCharacter, _, ⟨character, rfl, characterShown⟩, rfl⟩
    exact ⟨uri, line, character, ⟨document, range, start, hasRange, hasStart, hasLine, hasCharacter⟩, rfl,
      lineShown, characterShown⟩
  · rintro ⟨uri, line, character, ⟨document, range, start, hasRange, hasStart, hasLine, hasCharacter⟩,
      path, lineShown, characterShown⟩
    obtain ⟨name, _, _⟩ := p
    obtain rfl : name = displayUri root uri := path
    exact ⟨_, document, uri, rfl, range, hasRange, start, hasStart, _, hasLine, _, ⟨line, rfl, lineShown⟩,
      _, hasCharacter, _, ⟨character, rfl, characterShown⟩, rfl⟩

theorem get?_place (p : Place) : p.toJson.get? "path" = some (.str p.path) ∧
    p.toJson.get? "line" = some (.int p.line.toNat) ∧
    p.toJson.get? "column" = some (.int p.column.toNat) := by
  have found : ∀ name, p.toJson.get? name = List.lookup name [("column", .int p.column.toNat),
      ("line", .int p.line.toNat), ("path", .str p.path)] := fun name =>
    Json.lookup_sortMembers_reverse _ name
  exact ⟨found "path", found "line", found "column"⟩

theorem shows_filterMap (root : String) (items : List Json) :
    Shows root items ((items.filterMap (place? root)).map Place.toJson) := by
  induction items with
  | nil => exact .nil
  | cons item items ih =>
    cases told : place? root item with
    | none =>
      rw [List.filterMap_cons_none told]
      refine .omitted (fun uri line character tells => ?_) ih
      have there : place? root item =
          some ⟨displayUri root uri, UInt32.ofNat line + 1, UInt32.ofNat character + 1⟩ :=
        place?_eq_some_iff.mpr ⟨uri, line, character, tells, rfl, toNat_ofNat_add_one line,
          toNat_ofNat_add_one character⟩
      rw [told] at there
      cases there
    | some p =>
      rw [List.filterMap_cons_some told, List.map_cons]
      obtain ⟨uri, line, character, tells, path, lineShown, characterShown⟩ := place?_eq_some_iff.mp told
      obtain ⟨hasPath, hasLine, hasColumn⟩ := get?_place p
      exact .shown uri line character tells (path ▸ hasPath)
        ⟨⟨_, hasLine, oneBased_of_mod lineShown⟩, ⟨_, hasColumn, oneBased_of_mod characterShown⟩⟩ ih

/-- The places in the report of a query. -/
theorem get?_report (root : String) (q : Query) (result : Json) (asked : q.kind ≠ .hover) :
    (report root q result).get? "locations" = some (.arr ((places root result).map Place.toJson)) := by
  have listed : ∃ message, report root q result = Report.success ([("kind", .str q.kind.method),
      ("server", .str q.server.name)] ++ ([("locations", .arr ((places root result).map Place.toJson))] ++
        if (places root result).isEmpty then [("message", .str message)] else [])) := by
    unfold report
    cases kind : q.kind with
    | hover => exact absurd kind asked
    | definition => exact ⟨_, rfl⟩
    | references => exact ⟨_, rfl⟩
  obtain ⟨message, listed⟩ := listed
  rw [listed]
  change (Json.sortMembers _).lookup "locations" = _
  rw [Json.lookup_sortMembers_reverse]
  split <;> rfl

theorem shows_places (root : String) (result : Json) :
    Shows root (itemsOf result) ((places root result).map Place.toJson) := by
  cases result with
  | arr items => exact shows_filterMap root items
  | obj members =>
    have single := shows_filterMap root [.obj members]
    have same : [Json.obj members].filterMap (place? root) = (place? root (.obj members)).toList := by
      cases told : place? root (.obj members) <;> simp [told]
    rwa [same] at single
  | _ => exact .nil

/-! ## What the user sees -/

/-- **Places are shown counted from one.**  A number on the wire is shown exactly, one higher, if it is
    below 2³² - 1; any other is shown by the last 32 bits of the number that is one higher (`OneBased`).
    So it is

    * for each place in the report of a query: one for each item of the result, in order, that tells a
      place, whether the result is a location or a list of locations or of links; items that do not tell
      a document, a line and a character, each of them a number from zero on, are left out;
    * for each diagnostic that is read of what a server publishes, and all of them are below 2³²;
    * for all diagnostics in the report of a run, which are lists that the host has, as they are printed. -/
theorem places_shown (root : String) :
    (∀ q result, q.kind ≠ .hover → ∃ shown, (report root q result).get? "locations" = some (.arr shown) ∧
      Shows root (itemsOf result) shown) ∧
    (∀ v p, (ofJson v : Decoded PublishDiagnosticsParams) = .ok p →
      ∃ sent, v.member? "diagnostics" 2 = some (.arr sent) ∧ List.Forall₂ (fun w printed =>
        ∃ line character, Diagnostic.Starts w line character ∧ line < UInt32.size ∧
          character < UInt32.size ∧ ShowsStart printed line character)
        sent (p.diagnostics.map Run.diagnosticJson)) ∧
    ∀ (held : Run.Held) (name : String) (shown : Json),
      (Run.diagnosticsJson root held).get? name = some shown →
      ∃ entry ∈ held, displayUri root entry.1 = name ∧ shown = .arr (entry.2.map Run.diagnosticJson) := by
  refine ⟨fun q result asked => ⟨_, get?_report root q result asked, shows_places root result⟩, ?_, ?_⟩
  · intro v p read
    obtain ⟨sent, there, all⟩ := Diagnostic.starts_of_published read
    refine ⟨sent, there, List.forall₂_map_right_iff.mpr (all.imp fun w d starts => ?_)⟩
    exact ⟨_, _, starts, d.range.start.line.toNat_lt, d.range.start.character.toNat_lt,
      d.showsStart_diagnosticJson⟩
  · intro held name shown found
    rw [Run.get?_diagnosticsJson, Option.map_eq_some_iff] at found
    obtain ⟨entry, last, same⟩ := found
    obtain ⟨among, named⟩ := Run.mem_shownBy.mp (List.mem_of_getLast? last)
    exact ⟨entry, among, named, same.symm⟩

/-- A location in a file of the workspace. -/
def location (line character : Nat) : Json :=
  .object [("uri", .str "file:///w/a.go"), ("range", .object [("start",
    .object [("line", .int line), ("character", .int character)])])]

/-- A question for a definition. -/
def whereDefined : Query :=
  { kind := .definition, server := { name := "go", transport := .process "gopls" [] }
    uri := "file:///w/main.go", position := ⟨0, 0⟩, declaration := true }

/-- What a server publishes of one line. -/
def published (line : Nat) : Json :=
  .object [("uri", .str "file:///w/a.go"), ("diagnostics", .arr [.object [("message", .str "unused"),
    ("range", .object [("start", .object [("line", .int line), ("character", .int 0)]),
      ("end", .object [("line", .int line), ("character", .int 1)])])]])]

/-- A file of the workspace in which one line is complained about. -/
def unusedAt (line : UInt32) : PublishDiagnosticsParams :=
  { uri := "file:///w/a.go", diagnostics := [{ range := ⟨⟨line, 0⟩, ⟨line, 1⟩⟩, message := "unused" }] }

theorem places_shown_unused : whereDefined.kind ≠ .hover ∧
    (∃ shown, (report "/w" whereDefined (location 4 2)).get? "locations" = some (.arr shown) ∧
      Shows "/w" [location 4 2] shown) ∧
    ofJson (published 4) = .ok (unusedAt 4) ∧
    ∃ sent, (published 4).member? "diagnostics" 2 = some (.arr sent) ∧ sent.length = 1 := by
  obtain ⟨places, diagnostics, -⟩ := places_shown "/w"
  have read : ofJson (published 4) = .ok (unusedAt 4) := by decide +kernel
  obtain ⟨sent, there, all⟩ := diagnostics (published 4) (unusedAt 4) read
  exact ⟨by decide, places whereDefined (location 4 2) (by decide), read, sent, there, all.length_eq⟩

/-- A line beyond what 32 bits can count is shown as another one. -/
theorem far_lines_misplaced :
    places "/w" (location 4294967296 0) = [{ path := "a.go", line := 1, column := 1 }] ∧
    ofJson (published 4294967295) = .ok (unusedAt 4294967295) ∧
    ((unusedAt 4294967295).diagnostics.map Run.diagnosticJson).map (Json.get? "line") = [some (.int 0)] := by
  decide +kernel

end Query

end LanguageClient
