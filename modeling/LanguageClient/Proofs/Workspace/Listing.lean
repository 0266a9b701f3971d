import LanguageClient.Proofs.Workspace.Walk
/-!
# Complete listings

A listing of a directory has every file that the walk passes through to, once and in order
(`listFiles_cases`), or the request was cancelled.  What the walk passes is a matter of each entry on
the way (`passes_iff`).

Without the rules of `.gitignore` and with hidden names the `.ignore` files still have their say:
`ignoreVerdict` tells it of an entry by its place.
-/

namespace LanguageClient

namespace Workspace

variable {tree : FileTree} {options : WalkOptions} {outside : Outside}

/-! ## What is listed -/

theorem entries_eq {global : OuterRules} {root base : String} {place : List String} {n : Node}
    (resolved : tree.resolve base = .ok place) (here : tree.root.get? place = some n) :
    entries tree global root base options =
      entriesOf (contextAt tree options (outsideOf tree global root options) place) base place n := by
  rw [entries, resolved]
  dsimp only
  rw [here]

/-- The listing of a directory: cancelled, or all files that the walk passes through to. -/
theorem listFiles_cases (wf : tree.root.WellFormed) (global : OuterRules) (root : String)
    (options : WalkOptions)
    {base : String} {place : List String} {inner : List (String × Node)}
    (resolved : tree.resolve base = .ok place)
    (here : tree.root.get? place = some (.dir inner)) (fired : Nat → Bool) :
    (listFiles tree global root base options fired = .error .cancelled ∧ ∃ i, fired i = true) ∨
    ∃ files, listFiles tree global root base options fired = .ok files ∧
      files.Pairwise (fun a b => Path.le a b = true) ∧ files.Nodup ∧
      ∀ f, f ∈ files ↔ ∃ names octets, tree.root.get? (place ++ names) = some (.file octets) ∧
        Passes tree options (outsideOf tree global root options) base place names ∧
        f = pathBelow base names := by
  have isDir : tree.isDir base = true := by simp [FileTree.isDir, FileTree.node?, resolved, here, Node.isDir]
  rw [listFiles, if_pos isDir, collectFiles]
  -- cancelled before the last entry, or walked to the end
  by_cases cancelled : (List.range (entries tree global root base options).length).any fired = true
  · obtain ⟨i, -, fires⟩ := List.any_eq_true.mp cancelled
    exact Or.inl ⟨if_pos cancelled, i, fires⟩
  · refine Or.inr ⟨_, if_neg cancelled, Path.pairwise_mergeSort _, ?_, ?_⟩
    · rw [(List.mergeSort_perm _ _).nodup_iff]
      refine List.Nodup.sublist (List.Sublist.map _ List.filter_sublist) ?_
      rw [entries_eq resolved here]
      exact nodup_entriesOf wf here
    · intro f
      rw [List.mem_mergeSort, List.mem_map]
      constructor
      · rintro ⟨e, listed, rfl⟩
        obtain ⟨among, isFile⟩ := List.mem_filter.mp listed
        rw [entries_eq resolved here] at among
        obtain ⟨names, m, found, passes, rfl⟩ := (mem_entriesOf wf here).mp among
        obtain ⟨octets, rfl⟩ : ∃ octets, m = .file octets := by
          cases m <;> simp [Node.isFile] at isFile ⊢
        exact ⟨names, octets, found, passes, rfl⟩
      · rintro ⟨names, octets, found, passes, rfl⟩
        refine ⟨⟨pathBelow base names, true⟩, List.mem_filter.mpr ⟨?_, rfl⟩, rfl⟩
        rw [entries_eq resolved here]
        exact (mem_entriesOf wf here).mpr ⟨names, _, found, passes, rfl⟩

/-- A listing that nobody cancels is complete.  No two places have one path, so that a file is listed
    exactly if the walk passes through to it. -/
theorem listFiles_uncancelled (wf : tree.root.WellFormed) (global : OuterRules) (root : String)
    (options : WalkOptions)
    {base : String} {place : List String} {inner : List (String × Node)}
    (resolved : tree.resolve base = .ok place) (here : tree.root.get? place = some (.dir inner)) :
    ∃ files, listFiles tree global root base options (fun _ => false) = .ok files ∧
      (∀ f ∈ files, ∃ names octets, tree.root.get? (place ++ names) = some (.file octets) ∧
        f = pathBelow base names) ∧
      ∀ names octets, tree.root.get? (place ++ names) = some (.file octets) →
        (pathBelow base names ∈ files ↔
          Passes tree options (outsideOf tree global root options) base place names) := by
  -- below the directory the names of the tree are proper ones
  have proper {names : List String} {m : Node} (found : tree.root.get? (place ++ names) = some m) :
      ∀ name ∈ names, ProperName name := by
    rw [Node.get?_append, here, Option.bind_some] at found
    exact (wf.below here).proper_names found
  rcases listFiles_cases wf global root options resolved here (fun _ => false) with
    ⟨-, i, fires⟩ | ⟨files, listed, -, -, mem⟩
  · simp at fires
  · refine ⟨files, listed, ?_, ?_⟩
    · intro f among
      obtain ⟨names, octets, found, -, same⟩ := (mem f).mp among
      exact ⟨names, octets, found, same⟩
    · intro names octets found
      rw [mem]
      constructor
      -- no two places have one path, so the place found is the one meant
      · rintro ⟨names', octets', found', passes, same⟩
        rwa [pathBelow_inj (proper found) (proper found') same]
      · intro passes
        exact ⟨names, octets, found, passes, rfl⟩

/-- On the way to a file everything else is a directory; the walk passes if it looks at each of them,
    and at the file. -/
theorem passes_iff {path : String} {place names : List String} {octets : List UInt8}
    (found : tree.root.get? (place ++ names) = some (.file octets)) :
    Passes tree options outside path place names ↔ ∀ before name after, names = before ++ name :: after →
      (contextAt tree options outside (place ++ before)).admits (entryPath (pathBelow path before) name)
        name (!after.isEmpty) = true := by
  induction names generalizing path place with
  | nil => simp [Passes]
  | cons name names ih =>
    have rest := found
    rw [← List.singleton_append, ← List.append_assoc] at rest
    -- an entry on the way is a directory exactly if more names follow
    have isDir : ∀ n, tree.root.get? (place ++ [name]) = some n → n.isDir = !names.isEmpty := by
      intro n here
      rw [Node.get?_append, here, Option.bind_some] at rest
      cases names with
      | nil =>
        obtain rfl : n = .file octets := Option.some.inj rest
        rfl
      | cons next names =>
        obtain ⟨k, entry, -⟩ := Option.bind_eq_some_iff.mp rest
        obtain ⟨entries, rfl⟩ := Node.eq_dir_of_entry entry
        rfl
    rw [Passes, ih rest]
    constructor
    · rintro ⟨⟨n, here, admits⟩, later⟩ before name' after split
      cases before with
      | nil =>
        obtain ⟨rfl, rfl⟩ := List.cons.inj split
        simpa [isDir n here, pathBelow] using admits
      | cons first before =>
        obtain ⟨rfl, rfl⟩ := List.cons.inj split
        have next := later before name' after rfl
        rwa [List.append_assoc] at next
    · intro all
      obtain ⟨n, here, -⟩ := Option.bind_eq_some_iff.mp ((Node.get?_append ..).symm.trans rest)
      constructor
      · refine ⟨n, here, ?_⟩
        have first := all [] name names rfl
        simpa [isDir n here, pathBelow] using first
      · intro before name' after split
        have next := all (name :: before) name' after (by rw [split]; rfl)
        rwa [List.append_assoc]

/-! ## The rules of `.ignore` files -/

/-- What the `.ignore` files of the directories at and above a place say about an entry of the
    directory there, the innermost first. -/
def ignoreVerdict (tree : FileTree) (place : List String) (name : String) (isDir : Bool) :
    Option Verdict :=
  place.inits.reverse.findSome? fun above =>
    IgnoreRule.verdict (Context.rulesAt tree (above ++ [".ignore"]))
      ("/".intercalate (place.drop above.length ++ [name])) isDir

/-- All files, hidden ones too, whatever `.gitignore` says. -/
def everything : WalkOptions :=
  { respectGitignore := false, includeHidden := true }

/-- An entry is looked at if it is not called `.git` and neither the `.ignore` files nor, where these
    say nothing, the project's own rules have it ignored. -/
theorem admits_everything {place : List String} {path name : String} {isDir : Bool} :
    (contextAt tree everything outside place).admits path name isDir = true ↔
      name ≠ ".git" ∧ (ignoreVerdict tree place name isDir <|> outside.verdict path isDir) ≠
        some .ignored := by
  obtain ⟨-, options, sameOutside⟩ := contextAt_fixed tree everything outside place
  have layers := layers_contextAt tree everything outside place
  have ignore : (contextAt tree everything outside place).verdictBy Layer.ignore name isDir =
      ignoreVerdict tree place name isDir := by
    rw [Context.verdictBy, layers, List.findSome?_map]
    rfl
  have none (rules : Layer → List IgnoreRule)
      (empty : ∀ above below, rules { Context.layerAt tree everything above with below } = []) :
      (contextAt tree everything outside place).verdictBy rules name isDir = none := by
    rw [Context.verdictBy, layers, List.findSome?_map, List.findSome?_eq_none_iff]
    intro above _
    simp [empty, IgnoreRule.verdict]
  have verdict : (contextAt tree everything outside place).verdict path name isDir =
      (ignoreVerdict tree place name isDir <|> outside.verdict path isDir) := by
    rw [Context.verdict, ignore, none Layer.gitignore fun _ _ => rfl, none Layer.exclude fun _ _ => rfl,
      sameOutside]
    cases ignoreVerdict tree place name isDir <;> rfl
  rw [Context.admits, verdict, options]
  cases ignoreVerdict tree place name isDir <|> outside.verdict path isDir with
  | none => simp [everything]
  | some v => cases v <;> simp

/-- Where nothing of `.gitignore` counts, the user's rules do not either. -/
theorem outsideOf_everything (tree : FileTree) (global : OuterRules) (root : String) :
    outsideOf tree global root everything = { global := {}, own := { rules := ownRules tree root } } :=
  rfl

/-- Where no `.ignore` files are, nothing is ignored by them. -/
theorem ignoreVerdict_eq_none (wf : tree.root.WellFormed) {place : List String}
    {entries : List (String × Node)} (here : tree.root.get? place = some (.dir entries))
    (without : ∀ above ∈ place.inits, tree.root.get? (above ++ [".ignore"]) = none) (name : String)
    (isDir : Bool) : ignoreVerdict tree place name isDir = none := by
  rw [ignoreVerdict, List.findSome?_eq_none_iff]
  intro above among
  rw [List.mem_reverse] at among
  obtain ⟨rest, rfl⟩ := (List.mem_inits _ _).mp among
  obtain ⟨inner, there⟩ : ∃ inner, tree.root.get? above = some (.dir inner) := by
    rw [Node.get?_append] at here
    obtain ⟨n, there, further⟩ := Option.bind_eq_some_iff.mp here
    obtain ⟨inner, rfl⟩ := Node.root_eq_dir further
    exact ⟨inner, there⟩
  have missing : tree.read (FileTree.pathOf (above ++ [".ignore"])) = .error .noSuchFile :=
    FileTree.read_missing wf there (by decide) (without above among)
  have empty : Context.rulesAt tree (above ++ [".ignore"]) = [] := by rw [Context.rulesAt, missing]
  rw [empty]
  rfl

/-- A project without an ignore file of its own has no rules of its own. -/
theorem ownRules_eq_nil {root : String} (without : tree.pathExists (Path.join root ignoreFile) = false) :
    ownRules tree root = [] := by
  have error : ∃ e, tree.read (Path.join root ignoreFile) = .error e := by
    unfold FileTree.pathExists FileTree.node? at without
    cases resolved : tree.resolve (Path.join root ignoreFile) with
    | error e => exact ⟨e, by rw [FileTree.read, resolved]⟩
    | ok place =>
      rw [resolved] at without
      have nothing : tree.root.get? place = none := by simpa using without
      exact ⟨.noSuchFile, by simp only [FileTree.read, resolved, nothing]⟩
  obtain ⟨e, read⟩ := error
  rw [ownRules, read]

/-! ## The main result -/

/-- **Listing everything.**  In a project without an ignore file of its own a listing of a directory,
    with hidden files and whatever `.gitignore` says, is cancelled or complete: it has, in the order of
    their paths and once each, exactly the regular files below the directory on whose way nothing is
    called `.git`, and nothing is ignored by the `.ignore` files of the directories at or above it.
    Where there are no `.ignore` files these are all files with no `.git` on their way. -/
theorem listing_of_everything (tree : FileTree) (wf : tree.root.WellFormed) (global : OuterRules)
    (root base : String) (place : List String) (inner : List (String × Node))
    (resolved : tree.resolve base = .ok place)
    (here : tree.root.get? place = some (.dir inner))
    (without : tree.pathExists (Path.join root ignoreFile) = false) (fired : Nat → Bool) :
    (listFiles tree global root base everything fired = .error .cancelled ∧ ∃ i, fired i = true) ∨
    ∃ files, listFiles tree global root base everything fired = .ok files ∧
      files.Pairwise (fun a b => Path.le a b = true) ∧ files.Nodup ∧
      (∀ f, f ∈ files ↔ ∃ names octets, tree.root.get? (place ++ names) = some (.file octets) ∧
        f = pathBelow base names ∧ ".git" ∉ names ∧
        ∀ before name after, names = before ++ name :: after →
          ignoreVerdict tree (place ++ before) name (!after.isEmpty) ≠ some .ignored) ∧
      ((∀ above, tree.root.get? (above ++ [".ignore"]) = none) →
        ∀ f, f ∈ files ↔ ∃ names octets, tree.root.get? (place ++ names) = some (.file octets) ∧
          f = pathBelow base names ∧ ".git" ∉ names) := by
  rcases listFiles_cases wf global root everything resolved here fired with
    cancelled | ⟨files, listed, ordered, once, mem⟩
  · exact Or.inl cancelled
  · rw [outsideOf_everything, ownRules_eq_nil without] at mem
    -- nothing but `.git` itself and `.ignore` rules can hold the walk up
    have passes (names : List String) (octets : List UInt8)
        (found : tree.root.get? (place ++ names) = some (.file octets)) :
        Passes tree everything { global := {}, own := {} } base place names ↔ ".git" ∉ names ∧
          ∀ before name after, names = before ++ name :: after →
            ignoreVerdict tree (place ++ before) name (!after.isEmpty) ≠ some .ignored := by
      have alone (verdict : Option Verdict) (path : String) (isDir : Bool) :
          (verdict <|> ({ global := {}, own := {} } : Outside).verdict path isDir) = verdict := by
        cases verdict <;> rfl
      simp only [passes_iff found, admits_everything, alone]
      constructor
      · intro all
        constructor
        · intro among
          obtain ⟨before, after, split⟩ := List.append_of_mem among
          exact (all before _ after split).1 rfl
        · intro before name after split
          exact (all before name after split).2
      · rintro ⟨others, all⟩ before name after split
        constructor
        · rintro rfl
          exact others (by simp [split])
        · exact all before name after split
    refine Or.inr ⟨files, listed, ordered, once, ?_, ?_⟩
    · intro f
      rw [mem]
      constructor
      · rintro ⟨names, octets, found, through, same⟩
        exact ⟨names, octets, found, same, (passes names octets found).mp through⟩
      · rintro ⟨names, octets, found, same, through⟩
        exact ⟨names, octets, found, (passes names octets found).mpr through, same⟩
    -- without an `.ignore` above it no entry has a rule against it
    · intro none f
      rw [mem]
      constructor
      · rintro ⟨names, octets, found, through, same⟩
        exact ⟨names, octets, found, same, ((passes names octets found).mp through).1⟩
      · rintro ⟨names, octets, found, same, others⟩
        refine ⟨names, octets, found, (passes names octets found).mpr ⟨others, ?_⟩, same⟩
        intro before name after split
        rw [split, ← List.append_assoc] at found
        obtain ⟨entries, above⟩ := Node.dir_of_below found
        simp [ignoreVerdict_eq_none wf above fun above _ => none above]

/-- A directory with three files, one of which the `.ignore` file means. -/
def shaded : FileTree :=
  { root := .dir [(".ignore", .file (Utf8.encodeString "a.txt\n")), ("a.txt", .file []),
      ("b.txt", .file [])] }

theorem wellFormed_shaded : shaded.root.WellFormed := by
  refine Node.wellFormed_dir (by decide) ?_
  simp only [List.forall_mem_cons]
  exact ⟨⟨by decide, Node.wellFormed_file _⟩, ⟨by decide, Node.wellFormed_file _⟩,
    ⟨by decide, Node.wellFormed_file _⟩, by simp⟩

theorem resolve_shaded : shaded.resolve "/" = .ok [] := by
  simp [FileTree.resolve, FileTree.pieces, Text.splitAll, FileTree.follow, shaded, Node.get?]

theorem pathExists_shaded : shaded.pathExists (Path.join "/" ignoreFile) = false := by
  have path : Path.join "/" ignoreFile = FileTree.pathOf [".langlink", "ignore"] := by decide
  have resolved : shaded.resolve (FileTree.pathOf [".langlink", "ignore"]) =
      shaded.follow FileTree.maxLinks [] [".langlink", "ignore"] :=
    FileTree.resolve_pathOf (by simp) (by decide) rfl
  have missing : shaded.resolve (Path.join "/" ignoreFile) = .error .noSuchFile := by
    rw [path, resolved]
    exact FileTree.follow_missing (by decide) rfl rfl
  rw [FileTree.pathExists, FileTree.node?, missing]
  rfl

theorem ignoreVerdict_shaded (name : String) (isDir : Bool) : ignoreVerdict shaded [] name isDir =
    IgnoreRule.verdict (IgnoreRule.ofOctets (Utf8.encodeString "a.txt\n")) name isDir := by
  have read : shaded.read (FileTree.pathOf ([] ++ [".ignore"])) = .ok (Utf8.encodeString "a.txt\n") :=
    FileTree.read_pathOf wellFormed_shaded rfl (by simp)
  rw [List.nil_append] at read
  simp [ignoreVerdict, Context.rulesAt, read]

theorem listing_of_everything_shaded :
    shaded.root.WellFormed ∧ shaded.pathExists (Path.join "/" ignoreFile) = false ∧
    ∃ files, listFiles shaded {} "/" "/" everything (fun _ => false) = .ok files ∧ "/b.txt" ∈ files := by
  refine ⟨wellFormed_shaded, pathExists_shaded, ?_⟩
  rcases listing_of_everything shaded wellFormed_shaded {} "/" "/" [] _ resolve_shaded rfl pathExists_shaded
    (fun _ => false) with ⟨-, i, fires⟩ | ⟨files, listed, -, -, mem, -⟩
  · simp at fires
  · refine ⟨files, listed, (mem _).mpr ⟨["b.txt"], [], rfl, by decide, by decide, ?_⟩⟩
    intro before name after split
    obtain ⟨rfl, rfl, rfl⟩ : before = [] ∧ name = "b.txt" ∧ after = [] := by
      cases before <;> simp_all
    rw [List.append_nil, ignoreVerdict_shaded]
    decide +kernel

/-- A file that the `.ignore` file means is not listed, although everything is asked for. -/
theorem everything_but_ignored :
    shaded.root.get? ["a.txt"] = some (.file []) ∧
    ∃ files, listFiles shaded {} "/" "/" everything (fun _ => false) = .ok files ∧ "/a.txt" ∉ files := by
  obtain ⟨files, listed, -, mem⟩ :=
    listFiles_uncancelled wellFormed_shaded {} "/" everything resolve_shaded rfl
  refine ⟨rfl, files, listed, fun among => ?_⟩
  have path : pathBelow "/" ["a.txt"] = "/a.txt" := by decide
  have found : shaded.root.get? ([] ++ ["a.txt"]) = some (.file []) := rfl
  rw [← path, mem _ _ found, outsideOf_everything, ownRules_eq_nil pathExists_shaded,
    passes_iff found] at among
  have admitted := among [] "a.txt" [] rfl
  rw [List.append_nil, admits_everything, ignoreVerdict_shaded] at admitted
  exact admitted.2 (by decide +kernel)

end Workspace

end LanguageClient
