import LanguageClient.Proofs.Workspace.Tree
import Mathlib.Data.List.Induction
import Mathlib.Data.List.Infix
import Mathlib.Data.List.Nodup
/-!
# What a walk comes by

A walk carries the rules of the directories that it has entered, so what it does in a directory
depends on the place of that directory alone (`contextAt_concat`).  `Passes` says of a place below a
directory that the walk is let through to it, one entry after the other; the walk comes by just these
places (`mem_entriesOf`), and by each of them once (`nodup_entriesOf`).  Both are inductions on the
tree.
-/

namespace LanguageClient

namespace Workspace

variable {tree : FileTree} {options : WalkOptions} {outside : Outside}

/-! ## The rules at a place -/

/-- The rules at a place are those of the directory above, and its own. -/
theorem contextAt_concat (place : List String) (name : String) :
    contextAt tree options outside (place ++ [name]) =
      (contextAt tree options outside place).enter (place ++ [name]) name := by
  let start : Context := { tree, options, outside, layers := [Context.layerAt tree options []] }
  let enter : Context × List String → String → Context × List String :=
    fun here name => (here.1.enter (here.2 ++ [name]) name, here.2 ++ [name])
  have passed : ∀ place : List String, (place.foldl enter (start, [])).2 = place := by
    intro place
    induction place using List.reverseRecOn with
    | nil => rfl
    | append_singleton place name ih => simp [enter, ih]
  change ((place ++ [name]).foldl enter (start, [])).1 =
    ((place.foldl enter (start, [])).1).enter (place ++ [name]) name
  rw [List.foldl_append]
  change ((place.foldl enter (start, [])).1).enter ((place.foldl enter (start, [])).2 ++ [name]) name = _
  rw [passed]

/-- What a walk carries along besides the rules of the directories. -/
theorem contextAt_fixed (tree : FileTree) (options : WalkOptions) (outside : Outside)
    (place : List String) :
    (contextAt tree options outside place).tree = tree ∧
    (contextAt tree options outside place).options = options ∧
    (contextAt tree options outside place).outside = outside := by
  induction place using List.reverseRecOn with
  | nil => exact ⟨rfl, rfl, rfl⟩
  | append_singleton place name ih =>
    rw [contextAt_concat]
    exact ih

/-- The rules at a place are those of the directories at and above it, the innermost first. -/
theorem layers_contextAt (tree : FileTree) (options : WalkOptions) (outside : Outside)
    (place : List String) :
    (contextAt tree options outside place).layers = place.inits.reverse.map fun above =>
      { Context.layerAt tree options above with below := place.drop above.length } := by
  induction place using List.reverseRecOn with
  | nil => rfl
  | append_singleton place name ih =>
    obtain ⟨sameTree, sameOptions, -⟩ := contextAt_fixed tree options outside place
    have inits : (place ++ [name]).inits.reverse = (place ++ [name]) :: place.inits.reverse := by
      simp [List.inits_append]
    rw [contextAt_concat, inits, List.map_cons]
    simp only [Context.enter, sameTree, sameOptions, ih, List.map_map]
    congr 1
    · simp [Context.layerAt]
    · refine List.map_congr_left fun above among => ?_
      have short : above.length ≤ place.length :=
        ((List.mem_inits _ _).mp (List.mem_reverse.mp among)).length_le
      simp [List.drop_append_of_le_length short]

/-! ## The entries of a directory -/

/-- The walk comes by the entries of a directory one after the other. -/
theorem entriesBelow_eq (c : Context) (path : String) (place : List String)
    (entries : List (String × Node)) : entriesBelow c path place entries =
      entries.flatMap fun e =>
        if c.admits (entryPath path e.1) e.1 e.2.isDir then
          entriesOf (if e.2.isDir then c.enter (place ++ [e.1]) e.1 else c) (entryPath path e.1)
            (place ++ [e.1]) e.2
        else [] := by
  induction entries with
  | nil => rw [entriesBelow]; rfl
  | cons e entries ih =>
    obtain ⟨name, node⟩ := e
    rw [entriesBelow, List.flatMap_cons, ih]

/-- An entry that is no directory is all that there is. -/
theorem entriesOf_of_not_isDir (c : Context) (path : String) (place : List String) {n : Node}
    (leaf : n.isDir = false) : entriesOf c path place n = [⟨path, n.isFile⟩] := by
  cases n with
  | file => rw [entriesOf]; rfl
  | link => rw [entriesOf]; rfl
  | dir => simp [Node.isDir] at leaf

/-- The entries of the directory at a place are looked at with the rules of that place. -/
theorem entriesOf_dir (path : String) (place : List String) (entries : List (String × Node)) :
    entriesOf (contextAt tree options outside place) path place (.dir entries) =
      ⟨path, false⟩ :: entries.flatMap fun e =>
        if (contextAt tree options outside place).admits (entryPath path e.1) e.1 e.2.isDir then
          entriesOf (contextAt tree options outside (place ++ [e.1])) (entryPath path e.1)
            (place ++ [e.1]) e.2
        else [] := by
  rw [entriesOf, entriesBelow_eq]
  refine congrArg _ (List.flatMap_congr fun e _ => ?_)
  split
  · cases isDir : e.2.isDir with
    | true => rw [if_pos rfl, contextAt_concat]
    | false => rw [entriesOf_of_not_isDir _ _ _ isDir, entriesOf_of_not_isDir _ _ _ isDir]
  · rfl

theorem sizeOf_entry_lt {entries : List (String × Node)} {e : String × Node} (among : e ∈ entries) :
    sizeOf e.2 < sizeOf (Node.dir entries) := by
  have less := List.sizeOf_lt_of_mem among
  obtain ⟨name, node⟩ := e
  simp only [Prod.mk.sizeOf_spec, Node.dir.sizeOf_spec] at less ⊢
  omega

/-! ## Places that the walk is let through to -/

/-- Whether the walk is let through from the directory at a place, shown as `path`, to the entry that
    the names lead to. -/
def Passes (tree : FileTree) (options : WalkOptions) (outside : Outside) (path : String)
    (place : List String) : List String → Prop
  | [] => True
  | name :: names =>
    (∃ n, tree.root.get? (place ++ [name]) = some n ∧
      (contextAt tree options outside place).admits (entryPath path name) name n.isDir = true) ∧
    Passes tree options outside (entryPath path name) (place ++ [name]) names

/-- The entries at the places below a directory, by the first name of the way. -/
theorem passes_cons {path : String} {place : List String} {entries : List (String × Node)}
    (wf : tree.root.WellFormed) (here : tree.root.get? place = some (.dir entries))
    {name : String} {names : List String} {m : Node} :
    (tree.root.get? (place ++ name :: names) = some m ∧
        Passes tree options outside path place (name :: names)) ↔
      ∃ n, (name, n) ∈ entries ∧
        (contextAt tree options outside place).admits (entryPath path name) name n.isDir = true ∧
        tree.root.get? (place ++ [name] ++ names) = some m ∧
        Passes tree options outside (entryPath path name) (place ++ [name]) names := by
  have entry (n : Node) := wf.get?_concat_iff here name n
  rw [Passes, List.append_assoc, List.singleton_append]
  constructor
  · rintro ⟨found, ⟨n, there, admits⟩, rest⟩
    exact ⟨n, (entry n).mp there, admits, found, rest⟩
  · rintro ⟨n, among, admits, found, rest⟩
    exact ⟨found, ⟨n, (entry n).mpr among, admits⟩, rest⟩

theorem names_eq_nil_of_not_isDir {place names : List String} {n m : Node} (leaf : n.isDir = false)
    (here : tree.root.get? place = some n) (found : tree.root.get? (place ++ names) = some m) :
    names = [] ∧ m = n := by
  rw [Node.get?_append, here, Option.bind_some] at found
  cases names with
  | nil => exact ⟨rfl, (Option.some.inj found).symm⟩
  | cons name names =>
    cases n with
    | dir => simp [Node.isDir] at leaf
    | file | link => simp [Node.get?, Node.entry?] at found

/-- The walk comes by what it is let through to.  The induction is on the tree. -/
theorem mem_entriesOf (wf : tree.root.WellFormed) {path : String} {place : List String} {n : Node}
    (here : tree.root.get? place = some n) {e : Entry} :
    e ∈ entriesOf (contextAt tree options outside place) path place n ↔
      ∃ names m, tree.root.get? (place ++ names) = some m ∧
        Passes tree options outside path place names ∧ e = ⟨pathBelow path names, m.isFile⟩ := by
  by_cases leaf : n.isDir = false
  · rw [entriesOf_of_not_isDir _ _ _ leaf, List.mem_singleton]
    constructor
    · rintro rfl
      exact ⟨[], n, by rwa [List.append_nil], trivial, rfl⟩
    · rintro ⟨names, m, found, -, rfl⟩
      obtain ⟨rfl, rfl⟩ := names_eq_nil_of_not_isDir leaf here found
      rfl
  · obtain ⟨entries, rfl⟩ := Node.eq_dir (by simpa using leaf)
    rw [entriesOf_dir, List.mem_cons, List.mem_flatMap]
    constructor
    -- an entry is the directory itself, or comes of one of its entries
    · rintro (rfl | ⟨k, among, mem⟩)
      · exact ⟨[], .dir entries, by rwa [List.append_nil], trivial, rfl⟩
      · split at mem
        · rename_i admits
          obtain ⟨names, m, found, passes, rfl⟩ := (mem_entriesOf wf (wf.get?_entry here among)).mp mem
          obtain ⟨found', passes'⟩ := (passes_cons wf here).mpr ⟨k.2, among, admits, found, passes⟩
          exact ⟨k.1 :: names, m, found', passes', rfl⟩
        · simp at mem
    · rintro ⟨names, m, found, passes, rfl⟩
      cases names with
      | nil =>
        rw [List.append_nil, here] at found
        obtain rfl := Option.some.inj found
        exact Or.inl rfl
      | cons name names =>
        obtain ⟨k, among, admits, found', passes'⟩ := (passes_cons wf here).mp ⟨found, passes⟩
        refine Or.inr ⟨(name, k), among, ?_⟩
        rw [if_pos admits]
        exact (mem_entriesOf wf (wf.get?_entry here among)).mpr ⟨names, m, found', passes', rfl⟩
termination_by sizeOf n
decreasing_by
  · subst_vars; exact sizeOf_entry_lt ‹_›
  · subst_vars; exact sizeOf_entry_lt ‹_›

/-- The walk comes by every place once. -/
theorem nodup_entriesOf (wf : tree.root.WellFormed) {path : String} {place : List String} {n : Node}
    (here : tree.root.get? place = some n) :
    ((entriesOf (contextAt tree options outside place) path place n).map (·.path)).Nodup := by
  by_cases leaf : n.isDir = false
  · rw [entriesOf_of_not_isDir _ _ _ leaf]
    exact List.nodup_singleton _
  · obtain ⟨entries, rfl⟩ := Node.eq_dir (by simpa using leaf)
    have wf' := wf.below here
    let part (k : String × Node) : List String :=
      (if (contextAt tree options outside place).admits (entryPath path k.1) k.1 k.2.isDir = true then
        entriesOf (contextAt tree options outside (place ++ [k.1])) (entryPath path k.1)
          (place ++ [k.1]) k.2
      else []).map (·.path)
    -- what the walk comes by in an entry lies below it
    have inside (k : String × Node) (among : k ∈ entries) {f : String} (mem : f ∈ part k) :
        ∃ names, (∀ name ∈ k.1 :: names, ProperName name) ∧ f = pathBelow path (k.1 :: names) := by
      obtain ⟨e, listed, rfl⟩ := List.mem_map.mp mem
      split at listed
      · obtain ⟨names, m, found, -, rfl⟩ := (mem_entriesOf wf (wf.get?_entry here among)).mp listed
        refine ⟨names, ?_, rfl⟩
        rw [List.append_assoc, Node.get?_append, here, Option.bind_some] at found
        exact wf'.proper_names found
      · simp at listed
    have split : (entriesOf (contextAt tree options outside place) path place (.dir entries)).map (·.path) =
        path :: entries.flatMap part := by
      rw [entriesOf_dir, List.map_cons, List.map_flatMap]
    rw [split, List.nodup_cons, List.nodup_flatMap]
    refine ⟨?_, ?_, ?_⟩
    · -- everything else lies below the directory
      intro among
      obtain ⟨k, mem, inner⟩ := List.mem_flatMap.mp among
      obtain ⟨names, proper, same⟩ := inside k mem inner
      have above : pathBelow path [] = pathBelow path (k.1 :: names) := same
      have none : [] = k.1 :: names := pathBelow_inj (by simp) proper above
      simp at none
    · intro k among
      dsimp only [part]
      split
      · exact nodup_entriesOf wf (wf.get?_entry here among)
      · exact List.nodup_nil
    · -- entries of different names have nothing in common
      have distinct : entries.Pairwise fun k k' => k.1 ≠ k'.1 :=
        List.pairwise_map.mp (wf'.distinct [] entries rfl)
      apply distinct.imp_of_mem
      intro k k' mem mem' other f inner inner'
      obtain ⟨names, proper, rfl⟩ := inside k mem inner
      obtain ⟨names', proper', same⟩ := inside k' mem' inner'
      exact other (List.cons.inj (pathBelow_inj proper proper' same)).1
termination_by sizeOf n
decreasing_by
  subst_vars
  exact sizeOf_entry_lt ‹_›

end Workspace

end LanguageClient
