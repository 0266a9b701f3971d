import LanguageClient.Workspace.Walk
import Mathlib.Data.String.Basic
/-!
# Places in a tree and their paths

A place is a list of names, and a path is made of a place by joining one name after another
(`pathBelow`).  In a tree whose names are such as a file system has them (`Node.WellFormed`) a place is
found where its parts are (`get?_append`), and different places have different paths
(`pathBelow_inj`), however the directory is spelled that they lie below.
-/

namespace LanguageClient

/-! ## Names and paths -/

/-- A name that an entry of a directory may have. -/
structure ProperName (name : String) : Prop where
  nonempty : name ≠ ""
  here : name ≠ "."
  up : name ≠ ".."
  noSeparator : '/' ∉ name.toList
  noNul : '\x00' ∉ name.toList

instance (name : String) : Decidable (ProperName name) :=
  decidable_of_iff
    (name ≠ "" ∧ name ≠ "." ∧ name ≠ ".." ∧ '/' ∉ name.toList ∧ '\x00' ∉ name.toList)
    ⟨fun ⟨h₁, h₂, h₃, h₄, h₅⟩ => ⟨h₁, h₂, h₃, h₄, h₅⟩, fun h => ⟨h.1, h.2, h.3, h.4, h.5⟩⟩

namespace Text

theorem splitAll_ne_nil (sep : Char) (cs : List Char) : splitAll sep cs ≠ [] := by
  cases cs with
  | nil => simp [splitAll]
  | cons c cs =>
    rw [splitAll]
    split
    · simp
    · split <;> simp

/-- What is split at a separator is split before it, and after it. -/
theorem splitAll_append (sep : Char) (cs ds : List Char) :
    splitAll sep (cs ++ sep :: ds) = splitAll sep cs ++ splitAll sep ds := by
  induction cs with
  | nil => simp [splitAll]
  | cons c cs ih =>
    by_cases same : c = sep
    · simp [splitAll, same, ih]
    · obtain ⟨piece, pieces, split⟩ := List.exists_cons_of_ne_nil (splitAll_ne_nil sep cs)
      simp [splitAll, same, ih, split]

theorem splitAll_eq_self {sep : Char} {cs : List Char} (none : sep ∉ cs) :
    splitAll sep cs = [cs] := by
  induction cs with
  | nil => rfl
  | cons c cs ih =>
    rw [List.mem_cons, not_or] at none
    rw [splitAll, if_neg (Ne.symm none.1), ih none.2]

end Text

namespace Path

variable {name : String}

theorem partOf_name (proper : ProperName name) (first : Bool) :
    partOf first name.toList = some (.name name) := by
  unfold partOf
  split
  · rename_i empty
    exact absurd (String.toList_eq_nil_iff.mp empty) proper.nonempty
  · rename_i here
    exact absurd (String.ext here) proper.here
  · rename_i up
    exact absurd (String.ext up) proper.up
  · simp

/-- The parts that the pieces of a path stand for. -/
def partsOfPieces : List (List Char) → List Part
  | [] => []
  | piece :: pieces => (partOf true piece).toList ++ pieces.filterMap (partOf false)

theorem partsOfPieces_append {pieces : List (List Char)} (some : pieces ≠ []) (more : List (List Char)) :
    partsOfPieces (pieces ++ more) = partsOfPieces pieces ++ more.filterMap (partOf false) := by
  cases pieces with
  | nil => exact absurd rfl some
  | cons piece pieces => simp [partsOfPieces]

/-- The parts of a path are those of its pieces; before the first separator of an absolute path there
    is nothing. -/
theorem parts_eq (path : String) : parts path =
    (if isAbsolute path then [.root] else []) ++ partsOfPieces (Text.splitAll '/' path.toList) := by
  unfold parts isAbsolute
  cases path.toList with
  | nil => rfl
  | cons c cs =>
    by_cases root : c = '/'
    · subst root
      simp [Text.splitAll, partsOfPieces, partOf]
    · obtain ⟨piece, pieces, split⟩ := List.exists_cons_of_ne_nil (Text.splitAll_ne_nil '/' (c :: cs))
      have relative : ((c :: cs).head? == some '/') = false := by simpa using root
      rw [relative, split]
      split
      · rename_i empty
        simp at empty
      · rename_i head
        exact absurd (List.cons.inj head).1 root
      · rename_i same
        simp [split, partsOfPieces]

theorem isAbsolute_name (proper : ProperName name) : isAbsolute name = false := by
  unfold isAbsolute
  cases chars : name.toList with
  | nil => rfl
  | cons c cs =>
    have other : c ≠ '/' := by
      rintro rfl
      exact proper.noSeparator (by simp [chars])
    simpa using other

/-- How a name is joined to a path. -/
theorem join_name (path : String) (proper : ProperName name) : join path name =
    (match path.toList.getLast? with
      | none => path ++ name
      | some '/' => path ++ name
      | some _ => path ++ "/" ++ name) := by
  unfold join
  rw [isAbsolute_name proper, if_neg (by simp)]
  split <;> simp_all

/-- A name behind a separator is one more part, after those before it. -/
theorem parts_of_spelled {path path' : String} (front : List Char) (proper : ProperName name)
    (spelled : path'.toList = front ++ '/' :: name.toList)
    (absolute : isAbsolute path' = isAbsolute path)
    (before : partsOfPieces (Text.splitAll '/' front) = partsOfPieces (Text.splitAll '/' path.toList)) :
    parts path' = parts path ++ [.name name] := by
  have last : Text.splitAll '/' name.toList = [name.toList] := Text.splitAll_eq_self proper.noSeparator
  rw [parts_eq, parts_eq, spelled, Text.splitAll_append, last, absolute,
    partsOfPieces_append (Text.splitAll_ne_nil _ _), before, List.append_assoc]
  simp [partOf_name proper]

/-- A name that is joined to a path is one more part of it, however the path is spelled. -/
theorem parts_join (path : String) (proper : ProperName name) :
    parts (join path name) = parts path ++ [.name name] := by
  rw [join_name path proper]
  split
  · rename_i empty
    obtain rfl : path = "" := String.toList_eq_nil_iff.mp (List.getLast?_eq_none_iff.mp empty)
    have alone : parts name = [.name name] := by
      rw [parts_eq, isAbsolute_name proper, Text.splitAll_eq_self proper.noSeparator]
      simp [partsOfPieces, partOf_name proper]
    simpa [parts] using alone
  · rename_i ending
    obtain ⟨front, spelled⟩ := List.getLast?_eq_some_iff.mp ending
    refine parts_of_spelled front proper (by simp [spelled]) ?_ ?_
    · cases front <;> simp [isAbsolute, spelled]
    · rw [spelled, Text.splitAll_append, partsOfPieces_append (Text.splitAll_ne_nil _ _)]
      simp [Text.splitAll, partOf]
  · rename_i c _ ending
    obtain ⟨front, spelled⟩ := List.getLast?_eq_some_iff.mp ending
    refine parts_of_spelled path.toList proper (by simp) ?_ rfl
    cases front <;> simp [isAbsolute, spelled]

/-! ## The order of paths -/

theorem Part.le_total (p q : Part) : Part.le p q || Part.le q p := by
  cases p <;> cases q <;> simp [Part.le, Part.rank, String.le_total]

theorem Part.le_antisymm {p q : Part} (le : Part.le p q = true) (ge : Part.le q p = true) : p = q := by
  cases p <;> cases q <;> simp_all [Part.le, Part.rank]
  exact String.le_antisymm le ge

theorem Part.le_trans {p q r : Part} (first : Part.le p q = true) (second : Part.le q r = true) :
    Part.le p r = true := by
  cases p <;> cases q <;> cases r <;> simp_all [Part.le, Part.rank]
  exact String.le_trans first second

theorem partsLe_total (ps qs : List Part) : partsLe ps qs || partsLe qs ps := by
  induction ps generalizing qs with
  | nil => simp [partsLe]
  | cons p ps ih =>
    cases qs with
    | nil => simp [partsLe]
    | cons q qs =>
      by_cases same : p = q
      · simpa [partsLe, same] using ih qs
      · simpa [partsLe, same, Ne.symm same] using Part.le_total p q

theorem partsLe_trans {ps qs rs : List Part} (first : partsLe ps qs = true)
    (second : partsLe qs rs = true) : partsLe ps rs = true := by
  induction ps generalizing qs rs with
  | nil => simp [partsLe]
  | cons p ps ih =>
    cases qs with
    | nil => simp [partsLe] at first
    | cons q qs =>
      cases rs with
      | nil => simp [partsLe] at second
      | cons r rs =>
        rw [partsLe] at first second ⊢
        -- the first part that differs decides, for whichever pair it is
        by_cases pq : p = q
        · subst pq
          rw [if_pos rfl] at first
          by_cases pr : p = r
          · rw [if_pos pr] at second ⊢
            exact ih first second
          · rwa [if_neg pr] at second ⊢
        · rw [if_neg pq] at first
          by_cases qr : q = r
          · subst qr
            rwa [if_neg pq]
          · rw [if_neg qr] at second
            have pr : p ≠ r := by
              rintro rfl
              exact pq (Part.le_antisymm first second)
            rw [if_neg pr]
            exact Part.le_trans first second

theorem le_total (a b : String) : le a b || le b a :=
  partsLe_total _ _

theorem le_trans (a b c : String) (first : le a b = true) (second : le b c = true) : le a c = true :=
  partsLe_trans first second

/-- Paths that are put in order are in order. -/
theorem pairwise_mergeSort (paths : List String) :
    (paths.mergeSort le).Pairwise fun a b => le a b = true :=
  List.pairwise_mergeSort le_trans le_total paths

end Path

/-! ## Trees -/

namespace Node

/-- The names in a directory are such as entries have them, and no two entries have one name. -/
structure WellFormed (n : Node) : Prop where
  distinct : ∀ place entries, n.get? place = some (.dir entries) → (entries.map Prod.fst).Nodup
  proper : ∀ place entries, n.get? place = some (.dir entries) → ∀ e ∈ entries, ProperName e.1

variable {n m : Node}

theorem eq_dir_of_entry {name : String} (entry : n.entry? name = some m) :
    ∃ entries, n = .dir entries := by
  cases n with
  | dir entries => exact ⟨entries, rfl⟩
  | file | link => simp [ entry?] at entry

/-- What has a directory below it is a directory. -/
theorem root_eq_dir {place : List String} {entries : List (String × Node)}
    (here : n.get? place = some (.dir entries)) : ∃ top, n = .dir top := by
  cases place with
  | nil => exact ⟨entries, Option.some.inj here⟩
  | cons name names =>
    obtain ⟨k, entry, -⟩ := Option.bind_eq_some_iff.mp here
    exact eq_dir_of_entry entry

theorem eq_dir (isDir : n.isDir = true) : ∃ entries, n = .dir entries := by
  cases n with
  | dir entries => exact ⟨entries, rfl⟩
  | file | link => simp [Node.isDir] at isDir

/-- What is found at a place is found by one part of it after the other. -/
theorem get?_append (n : Node) (place names : List String) :
    n.get? (place ++ names) = (n.get? place).bind (·.get? names) := by
  induction place generalizing n with
  | nil => rfl
  | cons name place ih =>
    rw [List.cons_append, get?, get?]
    cases n.entry? name with
    | none => rfl
    | some m => exact ih m

/-- Something lies below a directory only. -/
theorem dir_of_below {place names : List String} {name : String}
    (found : n.get? (place ++ name :: names) = some m) : ∃ entries, n.get? place = some (.dir entries) := by
  rw [get?_append] at found
  obtain ⟨k, here, further⟩ := Option.bind_eq_some_iff.mp found
  obtain ⟨_, entry, -⟩ := Option.bind_eq_some_iff.mp further
  obtain ⟨entries, rfl⟩ := eq_dir_of_entry entry
  exact ⟨entries, here⟩

theorem get?_concat (place : List String) (name : String) :
    n.get? (place ++ [name]) = (n.get? place).bind fun k => k.entry? name := by
  rw [get?_append]
  cases n.get? place with
  | none => rfl
  | some m => cases entry : m.entry? name <;> simp [get?, entry]

/-- What lies in a tree with proper names is one itself. -/
theorem WellFormed.below (wf : n.WellFormed) {place : List String} (here : n.get? place = some m) :
    m.WellFormed := by
  have there : ∀ names, n.get? (place ++ names) = m.get? names := fun names => by
    rw [get?_append, here, Option.bind_some]
  exact ⟨fun names entries found => wf.distinct _ entries ((there names).trans found),
    fun names entries found => wf.proper _ entries ((there names).trans found)⟩

/-- What is in a directory under a name is its entry of that name. -/
theorem mem_iff_lookup {entries : List (String × Node)} (distinct : (entries.map Prod.fst).Nodup)
    {name : String} : (name, m) ∈ entries ↔ entries.lookup name = some m := by
  induction entries with
  | nil => simp
  | cons e entries ih =>
    obtain ⟨k, v⟩ := e
    rw [List.map_cons, List.nodup_cons] at distinct
    rw [List.mem_cons, List.lookup_cons]
    by_cases same : name = k
    · subst same
      have others : (name, m) ∉ entries := fun among =>
        distinct.1 (List.mem_map.mpr ⟨_, among, rfl⟩)
      simp [others, eq_comm]
    · have other : (name == k) = false := by simpa using same
      simp [same, other, ih distinct.2]

theorem WellFormed.mem_iff {entries : List (String × Node)} (wf : (Node.dir entries).WellFormed)
    {name : String} :
    (name, m) ∈ entries ↔ Node.entry? name (.dir entries) = some m :=
  mem_iff_lookup (wf.distinct [] entries rfl)

theorem WellFormed.get?_concat_iff (wf : n.WellFormed) {place : List String}
    {entries : List (String × Node)} (here : n.get? place = some (.dir entries)) (name : String)
    (m : Node) : n.get? (place ++ [name]) = some m ↔ (name, m) ∈ entries := by
  rw [Node.get?_concat, here, Option.bind_some, (wf.below here).mem_iff]

theorem WellFormed.get?_entry (wf : n.WellFormed) {place : List String}
    {entries : List (String × Node)} (here : n.get? place = some (.dir entries)) {e : String × Node}
    (among : e ∈ entries) : n.get? (place ++ [e.1]) = some e.2 :=
  (wf.get?_concat_iff here e.1 e.2).mpr among

/-- Every name on the way to a place is proper. -/
theorem WellFormed.proper_names (wf : n.WellFormed) {names : List String} (here : n.get? names = some m) :
    ∀ name ∈ names, ProperName name := by
  induction names generalizing n with
  | nil => simp
  | cons name names ih =>
    rw [get?] at here
    obtain ⟨k, entry, rest⟩ := Option.bind_eq_some_iff.mp here
    cases n with
    | file | link => simp [ entry?] at entry
    | dir entries =>
      have among := wf.mem_iff.mpr entry
      have there : (Node.dir entries).get? [name] = some k := by simp [get?, entry]
      have below : k.WellFormed := wf.below there
      intro name' mem
      rcases List.mem_cons.mp mem with rfl | later
      · exact wf.proper [] entries rfl _ among
      · exact ih below rest name' later

/-- A directory is well formed when its names and its entries are. -/
theorem wellFormed_dir {entries : List (String × Node)} (distinct : (entries.map Prod.fst).Nodup)
    (inner : ∀ e ∈ entries, ProperName e.1 ∧ e.2.WellFormed) : (Node.dir entries).WellFormed := by
  have below : ∀ {name names entries'}, (Node.dir entries).get? (name :: names) = some (.dir entries') →
      ∃ k, (name, k) ∈ entries ∧ k.get? names = some (.dir entries') := by
    intro name names entries' found
    rw [get?] at found
    obtain ⟨k, entry, rest⟩ := Option.bind_eq_some_iff.mp found
    exact ⟨k, (mem_iff_lookup distinct).mpr entry, rest⟩
  constructor
  · intro place entries' found
    cases place with
    | nil =>
      obtain rfl : entries = entries' := by simpa [get?] using found
      exact distinct
    | cons name names =>
      obtain ⟨k, among, rest⟩ := below found
      exact (inner _ among).2.distinct names entries' rest
  · intro place entries' found
    cases place with
    | nil =>
      obtain rfl : entries = entries' := by simpa [get?] using found
      exact fun e among => (inner e among).1
    | cons name names =>
      obtain ⟨k, among, rest⟩ := below found
      exact (inner _ among).2.proper names entries' rest

theorem wellFormed_file (octets : List UInt8) : (Node.file octets).WellFormed := by
  constructor <;>
  · intro place entries found
    cases place <;> simp [get?, entry?] at found

end Node

/-! ## Paths that lead to places -/

namespace FileTree

variable {tree : FileTree}

/-- The pieces of the path of a place are its names, after the separator at its beginning. -/
theorem pieces_pathOf {place : List String} (some : place ≠ [])
    (proper : ∀ name ∈ place, ProperName name) : pieces (pathOf place) = "" :: place := by
  have split : ∀ place : List String, place ≠ [] → (∀ name ∈ place, ProperName name) →
      Text.splitAll '/' ("/".intercalate place).toList = place.map String.toList := by
    intro place some proper
    induction place with
    | nil => exact absurd rfl some
    | cons name names ih =>
      rw [List.forall_mem_cons] at proper
      have alone : Text.splitAll '/' name.toList = [name.toList] :=
        Text.splitAll_eq_self proper.1.noSeparator
      cases names with
      | nil => simpa [String.toList_intercalate] using alone
      | cons next names =>
        have rest := ih (by simp) proper.2
        have put : ("/".intercalate (name :: next :: names)).toList =
            name.toList ++ '/' :: ("/".intercalate (next :: names)).toList := by
          simp [String.toList_intercalate, List.intercalate]
        rw [put, Text.splitAll_append, alone, rest]
        rfl
  have spelled : (pathOf place).toList = '/' :: ("/".intercalate place).toList := by
    simp [pathOf]
  rw [pieces, spelled, Text.splitAll, if_pos rfl, split place some proper]
  simp

theorem nul_notMem_pathOf {place : List String} (proper : ∀ name ∈ place, ProperName name) :
    '\x00' ∉ (pathOf place).toList := by
  simp only [pathOf, String.toList_append, String.toList_intercalate, List.mem_append, not_or]
  constructor
  · decide
  induction place with
  | nil => simp
  | cons name names ih =>
    rw [List.forall_mem_cons] at proper
    cases names with
    | nil => simpa using proper.1.noNul
    | cons next names => simpa [proper.1.noNul] using ih proper.2

/-- The place of a path is looked for from the root. -/
theorem resolve_pathOf {place : List String} {entries : List (String × Node)} (some : place ≠ [])
    (proper : ∀ name ∈ place, ProperName name) (root : tree.root = .dir entries) :
    tree.resolve (pathOf place) = tree.follow maxLinks [] place := by
  have spelled : (pathOf place).toList = '/' :: ("/".intercalate place).toList := by
    simp [pathOf]
  have nonempty : (pathOf place).toList.isEmpty = false := by rw [spelled]; rfl
  have text : (pathOf place).toList.contains '\x00' = false := by
    simpa using nul_notMem_pathOf proper
  rw [resolve, nonempty, text, if_neg (by simp), if_neg (by simp), pieces_pathOf some proper, follow]
  simp [Node.get?, root]

/-- A name that is there, and is no link, is gone on with. -/
theorem follow_present {links : Nat} {place rest : List String} {n : Node} {name : String}
    (proper : ProperName name) (here : tree.root.get? place = some n) {m : Node}
    (entry : n.entry? name = some m) (plain : m.isDir = true ∨ m.isFile = true) :
    tree.follow links place (name :: rest) = tree.follow links (place ++ [name]) rest := by
  obtain ⟨entries, rfl⟩ := Node.eq_dir_of_entry entry
  have found : entries.lookup name = some m := entry
  cases m with
  | link => simp [Node.isDir, Node.isFile] at plain
  | file octets =>
    rw [follow, here]
    simp [proper.nonempty, proper.here, proper.up, found]
  | dir inner =>
    rw [follow, here]
    simp [proper.nonempty, proper.here, proper.up, found]

theorem follow_missing {links : Nat} {place rest : List String} {entries : List (String × Node)}
    {name : String} (proper : ProperName name) (here : tree.root.get? place = some (.dir entries))
    (missing : entries.lookup name = none) :
    tree.follow links place (name :: rest) = .error .noSuchFile := by
  rw [follow, here]
  simp [proper.nonempty, proper.here, proper.up, missing]

/-- A path goes along directories as `get?` does. -/
theorem follow_names {links : Nat} (place names : List String) {rest : List String}
    {entries : List (String × Node)} (wf : tree.root.WellFormed)
    (found : tree.root.get? (place ++ names) = some (.dir entries)) :
    tree.follow links place (names ++ rest) = tree.follow links (place ++ names) rest := by
  induction names generalizing place with
  | nil => simp
  | cons name names ih =>
    have through := found
    rw [Node.get?_append] at through
    obtain ⟨n, here, further⟩ := Option.bind_eq_some_iff.mp through
    have proper : ProperName name := (wf.below here).proper_names further name (by simp)
    rw [Node.get?] at further
    obtain ⟨k, entry, last⟩ := Option.bind_eq_some_iff.mp further
    have isDir : k.isDir = true := by
      cases k with
      | dir inner => rfl
      | file | link => cases names <;> simp [Node.get?, Node.entry?] at last
    have next := ih (place ++ [name]) (by rwa [List.append_assoc])
    rw [List.cons_append, follow_present proper here entry (Or.inl isDir), next, List.append_assoc]
    rfl

variable {place : List String} {name : String} {entries : List (String × Node)}

/-- A name in a directory is looked for there. -/
theorem resolve_below (wf : tree.root.WellFormed) (here : tree.root.get? place = some (.dir entries))
    {rest : List String} (proper : ∀ n ∈ name :: rest, ProperName n) :
    tree.resolve (pathOf (place ++ name :: rest)) = tree.follow maxLinks place (name :: rest) := by
  obtain ⟨top, root⟩ := Node.root_eq_dir here
  have all : ∀ n ∈ place ++ name :: rest, ProperName n := by
    intro n among
    rcases List.mem_append.mp among with above | below
    · exact wf.proper_names here n above
    · exact proper n below
  rw [resolve_pathOf (by simp) all root]
  exact follow_names [] place wf here

/-- A file is read at its place. -/
theorem read_pathOf {octets : List UInt8} (wf : tree.root.WellFormed)
    (here : tree.root.get? place = some (.dir entries)) (among : (name, .file octets) ∈ entries) :
    tree.read (pathOf (place ++ [name])) = .ok octets := by
  have found : tree.root.get? (place ++ [name]) = some (.file octets) :=
    (wf.get?_concat_iff here name _).mpr among
  have proper : ProperName name := wf.proper place entries here _ among
  have resolved : tree.resolve (pathOf (place ++ [name])) = .ok (place ++ [name]) := by
    rw [resolve_below wf here (by simpa using proper),
      follow_present proper here ((wf.below here).mem_iff.mp among) (Or.inr rfl), follow]
  simp only [read, resolved, found]

/-- What is missing in a directory is not read, whatever is looked for below it. -/
theorem read_missing (wf : tree.root.WellFormed) (here : tree.root.get? place = some (.dir entries))
    {rest : List String} (proper : ∀ n ∈ name :: rest, ProperName n)
    (missing : tree.root.get? (place ++ [name]) = none) :
    tree.read (pathOf (place ++ name :: rest)) = .error .noSuchFile := by
  have absent : entries.lookup name = none := by
    rwa [Node.get?_concat, here, Option.bind_some] at missing
  rw [read, resolve_below wf here proper, follow_missing (proper name (by simp)) here absent]

end FileTree

namespace Workspace

/-- The path of a place below a directory. -/
def pathBelow (path : String) (names : List String) : String :=
  names.foldl entryPath path

theorem parts_pathBelow (path : String) {names : List String} (proper : ∀ name ∈ names, ProperName name) :
    Path.parts (pathBelow path names) = Path.parts path ++ names.map .name := by
  induction names generalizing path with
  | nil => simp [pathBelow]
  | cons name names ih =>
    rw [List.forall_mem_cons] at proper
    change Path.parts (pathBelow (entryPath path name) names) = _
    rw [ih _ proper.2, entryPath, Path.parts_join path proper.1]
    simp

/-- Different places have different paths. -/
theorem pathBelow_inj {path : String} {names names' : List String}
    (proper : ∀ name ∈ names, ProperName name) (proper' : ∀ name ∈ names', ProperName name)
    (same : pathBelow path names = pathBelow path names') : names = names' := by
  have parts := congrArg Path.parts same
  rw [parts_pathBelow path proper, parts_pathBelow path proper'] at parts
  have names := List.append_cancel_left parts
  exact List.map_injective_iff.mpr (fun a b h => Path.Part.name.inj h) names

end Workspace

end LanguageClient
