import LanguageClient.Command.Run
import LanguageClient.Proofs.Json.Members
/-!
# The diagnostics in the report of a run

The host keeps diagnostics by URI, each URI once, and hands its entries out in any order.  A report shows
them by name, and one name may show several URIs: differently escaped spellings of a path, or a URI that
is no file and reads like a path of the workspace.

The members of an object are kept by name, the last of each (`Json.lookup_sortMembers_reverse`), so the
report has one list for each name, whole and in order, the one of the entry that comes last.  From this
follows when nothing is lost, and when the order of the entries does not matter (`diagnostics_reported`).
-/

namespace LanguageClient

namespace Run

open Report (displayUri)

/-- The diagnostics that the host has, by URI. -/
abbrev Held := Table String (List Diagnostic)

variable {root name uri : String} {held order : Held} {entry : String × List Diagnostic}

/-- A list as it is printed. -/
def printed (entry : String × List Diagnostic) : List Json :=
  entry.2.map diagnosticJson

/-- The entries that a name shows. -/
def shownBy (root name : String) (held : Held) : Held :=
  held.filter fun entry => displayUri root entry.1 = name

/-- Under each name stands the list of the last entry that it shows. -/
theorem get?_diagnosticsJson (root name : String) (order : Held) :
    (diagnosticsJson root order).get? name =
      (shownBy root name order).getLast?.map fun entry => .arr (printed entry) := by
  have found : ∀ entries : Held, (entries.map fun entry =>
      (displayUri root entry.1, Json.arr (printed entry))).lookup name =
        (shownBy root name entries).head?.map fun entry => .arr (printed entry) := by
    intro entries
    induction entries with
    | nil => rfl
    | cons entry rest ih =>
      rw [List.map_cons, List.lookup_cons, shownBy, List.filter_cons]
      by_cases same : displayUri root entry.1 = name
      · simp [same]
      · have other : (name == displayUri root entry.1) = false := beq_false_of_ne (Ne.symm same)
        rw [other, ih, if_neg (by simpa using same)]
        rfl
  have reversed : shownBy root name order.reverse = (shownBy root name order).reverse :=
    List.filter_reverse
  change (Json.sortMembers _).lookup name = _
  rw [Json.lookup_sortMembers_reverse, ← List.map_reverse]
  refine (found order.reverse).trans ?_
  rw [reversed, List.head?_reverse]

/-! ## What may be lost -/

/-- Nothing is lost: what stands under a name has the lists of all URIs in it that the name shows, one
    after the other, each of them whole and in order. -/
def Complete (root : String) (held : Held) (report : Json) : Prop :=
  ∀ uri ∈ held.keys, ∃ (entries : Held) (shown : List Json),
    entries.Perm (shownBy root (displayUri root uri) held) ∧
    report.get? (displayUri root uri) = some (.arr shown) ∧ (entries.flatMap printed).Sublist shown

/-- No diagnostics are shown by a name that shows another URI as well. -/
def Apart (root : String) (held : Held) : Prop :=
  ∀ a ∈ held, ∀ b ∈ held, displayUri root a.1 = displayUri root b.1 → a.1 ≠ b.1 → a.2 = []

/-- URIs that are shown by one name have lists that are printed alike. -/
def Alike (root : String) (held : Held) : Prop :=
  ∀ a ∈ held, ∀ b ∈ held, displayUri root a.1 = displayUri root b.1 → printed a = printed b

theorem mem_shownBy : entry ∈ shownBy root name held ↔ entry ∈ held ∧ displayUri root entry.1 = name := by
  simp [shownBy]

/-- The entries may come in an order in which a given one is the last. -/
theorem exists_order (root : String) (among : entry ∈ held) : ∃ order : Held, order.Perm held ∧
    (diagnosticsJson root order).get? (displayUri root entry.1) = some (.arr (printed entry)) := by
  obtain ⟨before, after, rfl⟩ := List.append_of_mem among
  refine ⟨before ++ after ++ [entry], ?_, ?_⟩
  · exact (List.perm_append_singleton entry _).trans List.perm_middle.symm
  · simp [get?_diagnosticsJson, shownBy]

/-- Two lists are no shorter together than all that they are among. -/
theorem length_add_le {entries : Held} {a b : String × List Diagnostic} (aAmong : a ∈ entries)
    (bAmong : b ∈ entries) (other : a ≠ b) :
    (printed a).length + (printed b).length ≤ (entries.flatMap printed).length := by
  obtain ⟨before, after, rfl⟩ := List.append_of_mem bAmong
  have left : a ∈ before ++ after := by simpa [other] using aAmong
  obtain ⟨before', after', split⟩ := List.append_of_mem left
  have same := congrArg (fun entries : Held => (entries.flatMap printed).length) split
  simp only [List.flatMap_append, List.flatMap_cons, List.length_append] at same ⊢
  omega

theorem apart_of_complete (complete : ∀ order : Held, order.Perm held →
    Complete root held (diagnosticsJson root order)) : Apart root held := by
  intro a aHeld b bHeld together other
  obtain ⟨order, perm, last⟩ := exists_order root bHeld
  obtain ⟨entries, shown, same, found, all⟩ :=
    complete order perm b.1 (List.mem_map_of_mem (f := (·.1)) bHeld)
  obtain rfl : printed b = shown := Json.arr.inj (Option.some.inj (last.symm.trans found))
  have among : ∀ {c}, c ∈ held → displayUri root c.1 = displayUri root b.1 → c ∈ entries :=
    fun cHeld shows => same.mem_iff.mpr (mem_shownBy.mpr ⟨cHeld, shows⟩)
  have enough := length_add_le (among aHeld together) (among bHeld rfl)
    fun same => other (congrArg (·.1) same)
  have empty : (printed a).length = 0 := by
    have := all.length_le
    omega
  simpa [printed] using empty

theorem complete_of_apart (distinct : held.keys.Nodup) (apart : Apart root held)
    (perm : order.Perm held) : Complete root held (diagnosticsJson root order) := by
  intro uri among
  obtain ⟨entry, isHeld, rfl⟩ := List.mem_map.mp among
  have same : (shownBy root (displayUri root entry.1) order).Perm
      (shownBy root (displayUri root entry.1) held) := perm.filter _
  have there : entry ∈ shownBy root (displayUri root entry.1) order :=
    same.mem_iff.mpr (mem_shownBy.mpr ⟨isHeld, rfl⟩)
  obtain ⟨first, last, split⟩ :=
    (List.eq_nil_or_concat _).resolve_left (List.ne_nil_of_mem there)
  rw [List.concat_eq_append] at split
  refine ⟨first ++ [last], printed last, split ▸ same, ?_, ?_⟩
  · simp [get?_diagnosticsJson, split]
  -- every list but the last is empty
  · have keys : ((first ++ [last]).map (·.1)).Nodup := by
      rw [← split]
      exact ((perm.map _).nodup_iff.mpr distinct).sublist (List.filter_sublist.map _)
    have shows : ∀ {e}, e ∈ first ++ [last] → e ∈ held ∧ displayUri root e.1 = displayUri root entry.1 :=
      fun among => mem_shownBy.mp (same.mem_iff.mp (split ▸ among))
    obtain ⟨lastHeld, lastShown⟩ := shows (List.mem_append_right _ List.mem_cons_self)
    have nothing : first.flatMap printed = [] := List.flatMap_eq_nil_iff.mpr fun a earlier => by
      obtain ⟨aHeld, aShown⟩ := shows (List.mem_append_left _ earlier)
      have other : a.1 ≠ last.1 := by
        rw [List.map_append, List.nodup_append] at keys
        exact keys.2.2 a.1 (List.mem_map_of_mem earlier) last.1 (by simp)
      rw [printed, apart a aHeld last lastHeld (aShown.trans lastShown.symm) other]
      rfl
    rw [List.flatMap_append, nothing]
    simp

theorem alike_of_steady (steady : ∀ order order' : Held, order.Perm held → order'.Perm held →
    diagnosticsJson root order = diagnosticsJson root order') : Alike root held := by
  intro a aHeld b bHeld together
  obtain ⟨order, perm, last⟩ := exists_order root aHeld
  obtain ⟨order', perm', last'⟩ := exists_order root bHeld
  rw [steady order order' perm perm', together] at last
  exact Json.arr.inj (Option.some.inj (last.symm.trans last'))

theorem steady_of_alike {order' : Held} (alike : Alike root held) (perm : order.Perm held)
    (perm' : order'.Perm held) : diagnosticsJson root order = diagnosticsJson root order' := by
  refine congrArg Json.obj (Json.InOrder.ext_lookup (Json.inOrder_sortMembers _)
    (Json.inOrder_sortMembers _) fun name => ?_)
  change (diagnosticsJson root order).get? name = (diagnosticsJson root order').get? name
  rw [get?_diagnosticsJson, get?_diagnosticsJson]
  have same : (shownBy root name order).Perm (shownBy root name order') :=
    (perm.trans perm'.symm).filter _
  cases last : (shownBy root name order).getLast? with
  | none =>
    rw [List.getLast?_eq_none_iff.mp last] at same
    rw [same.nil_eq.symm]
    rfl
  | some a =>
    have aThere := List.mem_of_getLast? last
    obtain ⟨b, last'⟩ : ∃ b, (shownBy root name order').getLast? = some b :=
      Option.ne_none_iff_exists'.mp fun none =>
        List.ne_nil_of_mem (same.mem_iff.mp aThere) (List.getLast?_eq_none_iff.mp none)
    obtain ⟨aHeld, aShown⟩ := mem_shownBy.mp aThere
    obtain ⟨bHeld, bShown⟩ := mem_shownBy.mp (List.mem_of_getLast? last')
    rw [last', Option.map_some, Option.map_some,
      alike a (perm.mem_iff.mp aHeld) b (perm'.mem_iff.mp bHeld) (aShown.trans bShown.symm)]

/-! ## The report -/

/-- **The diagnostics in a report.**  The host has a list for each of some URIs, and its entries come in
    any order.  Then the report has

    * under each name that shows a URI, and under no other, one whole list in order, the one of the entry
      that comes last of those that the name shows;
    * all lists, in whatever order the entries come, exactly if no diagnostics are shown by a name that
      shows another URI as well;
    * the same in whatever order the entries come, exactly if URIs that are shown by one name have lists
      that are printed alike. -/
theorem diagnostics_reported (h : Host) (opened : List String) (servers : List ServerOutcome)
    (distinct : h.diagnostics.keys.Nodup) :
    (∀ order : Held, (report { h with diagnostics := order } opened servers).get? "diagnostics" =
      some (diagnosticsJson h.root order)) ∧
    (∀ (order : Held) (name : String), (diagnosticsJson h.root order).get? name =
      (shownBy h.root name order).getLast?.map fun entry => .arr (entry.2.map diagnosticJson)) ∧
    ((∀ order : Held, order.Perm h.diagnostics →
      Complete h.root h.diagnostics (diagnosticsJson h.root order)) ↔ Apart h.root h.diagnostics) ∧
    ((∀ order order' : Held, order.Perm h.diagnostics → order'.Perm h.diagnostics →
      diagnosticsJson h.root order = diagnosticsJson h.root order') ↔ Alike h.root h.diagnostics) := by
  refine ⟨fun order => ?_, fun order name => get?_diagnosticsJson h.root name order,
    ⟨apart_of_complete, fun apart order => complete_of_apart distinct apart⟩,
    ⟨alike_of_steady, fun alike order order' => steady_of_alike alike⟩⟩
  change (Json.sortMembers _).lookup "diagnostics" = _
  rw [Json.lookup_sortMembers_reverse]
  rfl

/-- What two tools of a server say about one line. -/
def foundBy (tool message : String) : Diagnostic :=
  { range := ⟨⟨0, 0⟩, ⟨0, 1⟩⟩, source := some tool, message }

/-- Diagnostics for two files. -/
def twoFiles : Host :=
  { root := "/w"
    diagnostics := [("file:///w/a.go", [foundBy "vet" "unused", foundBy "lint" "unused"]),
      ("file:///w/b.go", [foundBy "vet" "unreachable"])] }

theorem diagnostics_reported_twoFiles : twoFiles.diagnostics.keys.Nodup ∧
    Complete "/w" twoFiles.diagnostics (diagnosticsJson "/w" twoFiles.diagnostics.reverse) := by
  have distinct : twoFiles.diagnostics.keys.Nodup := by decide
  have apart : Apart "/w" twoFiles.diagnostics := by
    unfold Apart
    decide +kernel
  obtain ⟨-, -, complete, -⟩ := diagnostics_reported twoFiles [] [] distinct
  exact ⟨distinct, complete.mpr apart _ (List.reverse_perm _)⟩

/-- Diagnostics for two spellings of the URI of one file. -/
def twoSpellings (message message' : String) : Held :=
  [("file:///w/a.go", [foundBy "vet" message]), ("file:///w/%61.go", [foundBy "lint" message'])]

/-- Of the diagnostics for two spellings of a URI one is not in the report, and which one depends on the
    order in which they come. -/
theorem spellings_lose_diagnostics :
    (∀ message message', ¬ Complete "/w" (twoSpellings message message')
      (diagnosticsJson "/w" (twoSpellings message message'))) ∧
    diagnosticsJson "/w" (twoSpellings "unused" "shadowed") ≠
      diagnosticsJson "/w" (twoSpellings "unused" "shadowed").reverse := by
  refine ⟨fun message message' complete => ?_, by decide +kernel⟩
  obtain ⟨entries, shown, same, found, all⟩ := complete "file:///w/a.go" (by simp [twoSpellings, Table.keys])
  have alone : (diagnosticsJson "/w" (twoSpellings message message')).get?
      (displayUri "/w" "file:///w/a.go") = some (.arr [diagnosticJson (foundBy "lint" message')]) := by
    rfl
  obtain rfl := Json.arr.inj (Option.some.inj (alone.symm.trans found))
  have alike : displayUri "/w" "file:///w/%61.go" = displayUri "/w" "file:///w/a.go" := by decide +kernel
  have both : ∀ entry ∈ twoSpellings message message', entry ∈ entries := fun entry among => by
    refine same.mem_iff.mpr (mem_shownBy.mpr ⟨among, ?_⟩)
    obtain rfl | rfl : entry = _ ∨ entry = _ := by simpa [twoSpellings] using among
    · rfl
    · exact alike
  have enough := length_add_le (both _ List.mem_cons_self)
    (both _ (List.mem_cons_of_mem _ List.mem_cons_self)) (by simp)
  have := all.length_le
  simp [printed] at enough this
  omega

end Run

end LanguageClient
