import LanguageClient.Proofs.Workspace.Listing
/-!
# Listings of directories of the workspace

The listing of a directory and that of the whole workspace look at the entries below the directory in
the same way: the rules of the directories above count for both (`contextAt` knows the place alone).
What lies on the way from the root to the directory, the directory itself included, is looked at by the
second only.  So the first has what the second has below the directory when all on the way is admitted
(`passes_append`), and otherwise it has files where the second has none.

The rules of the user and the project's own rules judge an entry by its path, which begins as the
directory was spelled.
-/

namespace LanguageClient

namespace Workspace

variable {tree : FileTree} {options : WalkOptions} {outside : Outside}

/-! ## Spellings of a directory -/

/-- The rules outside the workspace judge all that is on the way to an entry alike, whichever of two paths
    stands for the directory that the way begins at. -/
def JudgedAlike (outside : Outside) (path path' : String) (names : List String) : Prop :=
  ∀ name way rest, names = name :: way ++ rest → ∀ isDir,
    outside.verdict (pathBelow path (name :: way)) isDir =
      outside.verdict (pathBelow path' (name :: way)) isDir

theorem JudgedAlike.refl (outside : Outside) (path : String) (names : List String) :
    JudgedAlike outside path path names := by
  intro name way rest split isDir
  rfl

/-- A directory with a repository, and with files of which the project's own rules mean one. -/
def guarded : FileTree :=
  { root := .dir [(".git", .dir [("HEAD", .file [])]),
      (".langlink", .dir [("ignore", .file (Utf8.encodeString "**/src/a.txt\n"))]),
      ("src", .dir [("a.txt", .file []), ("b.txt", .file [])])] }

end Workspace

end LanguageClient
