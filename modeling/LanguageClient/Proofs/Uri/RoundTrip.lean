import LanguageClient.Host.Files
import LanguageClient.Proofs.Uri.Escapes
/-!
# URIs of paths

A path that is written as a URI is read back from it, whatever characters it has.  Each octet of a
character that does not stand for itself is an escape, and an escape is read as that octet whatever
comes behind it; so the octets of the whole path are read in the order in which they were written,
and they are text because they were.

The files that a server is told of are named by such URIs, and what it asks for by one of them is the
file that was meant.
-/

namespace LanguageClient.Uri

def Unreserved (c : Char) : Prop :=
  c ∈ ['/', '.', '-', '_', '~'] ∨ c.isAlphanum = true

/-- A hexadecimal digit, if a letter then an upper-case one. -/
def UpperHex (c : Char) : Prop :=
  ('0' ≤ c ∧ c ≤ '9') ∨ ('A' ≤ c ∧ c ≤ 'F')

/-- What stands behind the scheme of a URI that is written. -/
inductive Spelled : List Char → Prop where
  | nil : Spelled []
  | plain {c : Char} {rest : List Char} (plain : Unreserved c) (spelled : Spelled rest) :
      Spelled (c :: rest)
  | escape {c d : Char} {rest : List Char} (high : UpperHex c) (low : UpperHex d)
      (spelled : Spelled rest) : Spelled ('%' :: c :: d :: rest)

variable {n : Nat} {c : Char} {text : List Char} {path : String}

/-! ## Digits -/

theorem upperHex_hexDigit (digit : n < 16) : UpperHex (hexDigit n) := by
  have all : ∀ k : Fin 16, UpperHex (hexDigit k) := by
    unfold UpperHex
    decide
  exact all ⟨n, digit⟩

theorem ascii_hexDigit (digit : n < 16) : (hexDigit n).toNat < 0x80 := by
  have all : ∀ k : Fin 16, (hexDigit k).toNat < 0x80 := by decide
  exact all ⟨n, digit⟩

theorem hexValue_hexDigit (digit : n < 16) :
    hexValue (UInt8.ofNat (hexDigit n).toNat) = some (UInt8.ofNat n) := by
  have all : ∀ k : Fin 16,
      hexValue (UInt8.ofNat (hexDigit k).toNat) = some (UInt8.ofNat k) := by decide
  exact all ⟨n, digit⟩

/-! ## What is written -/

theorem unreserved_of_isPlain (plain : isPlain c = true) : Unreserved c := by
  simp only [isPlain, Bool.or_eq_true, beq_iff_eq, Bool.and_eq_true, decide_eq_true_eq] at plain
  unfold Unreserved Char.isAlphanum Char.isAlpha Char.isUpper Char.isLower Char.isDigit
  simp only [List.mem_cons, List.not_mem_nil, or_false, Bool.or_eq_true, Bool.and_eq_true,
    decide_eq_true_eq]
  rcases plain with (((sign | lower) | upper) | digit)
  · left
    rwa [or_assoc, or_assoc, or_assoc] at sign
  · exact Or.inr (Or.inl (Or.inr lower))
  · exact Or.inr (Or.inl (Or.inl upper))
  · exact Or.inr (Or.inr digit)

theorem toNat_of_unreserved (plain : Unreserved c) : c.toNat < 0x80 ∧ c.toNat ≠ 0x25 := by
  rcases plain with sign | letter
  · simp only [List.mem_cons, List.not_mem_nil, or_false] at sign
    rcases sign with rfl | rfl | rfl | rfl | rfl <;> decide
  · unfold Char.isAlphanum Char.isAlpha Char.isUpper Char.isLower Char.isDigit at letter
    simp only [Bool.or_eq_true, Bool.and_eq_true, decide_eq_true_eq, UInt32.le_iff_toNat_le] at letter
    simp at letter
    omega

theorem Spelled.append {more : List Char} (spelled : Spelled text) (after : Spelled more) :
    Spelled (text ++ more) := by
  induction spelled with
  | nil => exact after
  | plain plain _ ih => exact .plain plain ih
  | escape high low _ ih => exact .escape high low ih

theorem spelled_escapeOctet (b : UInt8) : Spelled (escapeOctet b) := by
  have size := b.toNat_lt
  apply Spelled.escape
  · exact upperHex_hexDigit (by omega)
  · exact upperHex_hexDigit (by omega)
  · exact .nil

theorem spelled_escapes (octets : List UInt8) : Spelled (octets.flatMap escapeOctet) := by
  induction octets with
  | nil => exact .nil
  | cons b octets ih =>
    rw [List.flatMap_cons]
    exact (spelled_escapeOctet b).append ih

theorem spelled_encodeChar (c : Char) : Spelled (encodeChar c) := by
  rw [encodeChar]
  split
  · next plain => exact .plain (unreserved_of_isPlain plain) .nil
  · exact spelled_escapes _

theorem spelled_encode (text : List Char) : Spelled (encode text) := by
  induction text with
  | nil => exact .nil
  | cons c text ih =>
    rw [encode, List.flatMap_cons]
    exact (spelled_encodeChar c).append ih

/-! ## Reading it back -/

theorem encode_escapeOctet (b : UInt8) :
    Utf8.encode (escapeOctet b) = [percent, UInt8.ofNat (hexDigit (b.toNat / 16)).toNat,
      UInt8.ofNat (hexDigit (b.toNat % 16)).toNat] := by
  have size := b.toNat_lt
  have high := Utf8.utf8EncodeChar_one (ascii_hexDigit (n := b.toNat / 16) (by omega))
  have low := Utf8.utf8EncodeChar_one (ascii_hexDigit (n := b.toNat % 16) (by omega))
  have sign : String.utf8EncodeChar '%' = [percent] := by decide +kernel
  simp only [Utf8.encode, escapeOctet, List.flatMap_cons, List.flatMap_nil, sign, high, low]
  rfl

theorem unescape_escapeOctet (b : UInt8) (rest : List UInt8) :
    unescape (Utf8.encode (escapeOctet b) ++ rest) = b :: unescape rest := by
  have size := b.toNat_lt
  have high := hexValue_hexDigit (n := b.toNat / 16) (by omega)
  have low := hexValue_hexDigit (n := b.toNat % 16) (by omega)
  have value : UInt8.ofNat (b.toNat / 16) * 16 + UInt8.ofNat (b.toNat % 16) = b := by
    apply UInt8.toNat_inj.mp
    simp
    omega
  rw [encode_escapeOctet]
  calc unescape (percent :: _ :: _ :: rest)
      = (UInt8.ofNat (b.toNat / 16) * 16 + UInt8.ofNat (b.toNat % 16)) :: unescape rest :=
        unescape_escape high low
    _ = b :: unescape rest := by rw [value]

theorem unescape_escapes (octets rest : List UInt8) :
    unescape (Utf8.encode (octets.flatMap escapeOctet) ++ rest) = octets ++ unescape rest := by
  induction octets with
  | nil => rfl
  | cons b octets ih =>
    rw [List.flatMap_cons, Utf8.encode_append, List.append_assoc, unescape_escapeOctet, ih]
    rfl

theorem unescape_encodeChar (c : Char) (rest : List UInt8) :
    unescape (Utf8.encode (encodeChar c) ++ rest) = String.utf8EncodeChar c ++ unescape rest := by
  rw [encodeChar]
  split
  · next plain =>
    -- A plain character is one octet, and that octet is not the one of an escape.
    obtain ⟨ascii, other⟩ := toNat_of_unreserved (unreserved_of_isPlain plain)
    have apart : UInt8.ofNat c.toNat ≠ percent := by
      intro same
      have value := congrArg UInt8.toNat same
      rw [UInt8.toNat_ofNat', Nat.mod_eq_of_lt (by omega)] at value
      exact other value
    have octets : Utf8.encode [c] = [UInt8.ofNat c.toNat] := by
      rw [Utf8.encode, List.flatMap_cons, Utf8.utf8EncodeChar_one ascii]
      rfl
    rw [octets, Utf8.utf8EncodeChar_one ascii]
    exact unescape_kept apart
  · exact unescape_escapes _ _

theorem unescape_encode (text : List Char) : unescape (Utf8.encode (encode text)) = Utf8.encode text := by
  induction text with
  | nil => rfl
  | cons c text ih =>
    have split : encode (c :: text) = encodeChar c ++ encode text := List.flatMap_cons
    rw [split, Utf8.encode_append, unescape_encodeChar, ih, Utf8.encode_cons]

theorem decode_encode (text : List Char) : decode (encode text) = text := by
  rw [decode, unescape_encode, Utf8.decodeLossy_encode]

theorem dropPrefix?_append (p rest : List Char) : Text.dropPrefix? p (p ++ rest) = some rest := by
  induction p with
  | nil => rfl
  | cons c p ih => rw [List.cons_append, Text.dropPrefix?, if_pos rfl, ih]

theorem toPath?_fileScheme (text : List Char) :
    toPath? (fileScheme ++ String.ofList (encode text)) = some (String.ofList text) := by
  rw [toPath?, String.toList_append, String.toList_ofList, dropPrefix?_append, Option.map_some,
    decode_encode]

theorem toPath?_ofPath (absolute : Path.isAbsolute path = true) :
    toPath? (ofPath path) = some path := by
  rw [ofPath, if_pos absolute, toPath?_fileScheme, String.ofList_toList]

end LanguageClient.Uri

namespace LanguageClient.Path

variable {base : String}

theorem isAbsolute_append (absolute : isAbsolute base = true) (more : String) :
    isAbsolute (base ++ more) = true := by
  rw [isAbsolute, beq_iff_eq] at absolute ⊢
  rw [String.toList_append, List.head?_append, absolute]
  rfl

theorem isAbsolute_join (absolute : isAbsolute base = true) (path : String) :
    isAbsolute (join base path) = true := by
  rw [join]
  split
  · next itself => exact itself
  · rw [String.append_assoc]
    exact isAbsolute_append absolute _

end LanguageClient.Path

namespace LanguageClient.Workspace

mutual

theorem isAbsolute_of_mem_entriesOf (c : Context) {path : String} (place : List String) (node : Node)
    (absolute : Path.isAbsolute path = true) :
    ∀ entry ∈ entriesOf c path place node, Path.isAbsolute entry.path = true := by
  cases node with
  | file octets =>
    intro entry mem
    rw [entriesOf, List.mem_singleton] at mem
    rw [mem]
    exact absolute
  | link target =>
    intro entry mem
    rw [entriesOf, List.mem_singleton] at mem
    rw [mem]
    exact absolute
  | dir entries =>
    intro entry mem
    rw [entriesOf, List.mem_cons] at mem
    rcases mem with rfl | below
    · exact absolute
    · exact isAbsolute_of_mem_entriesBelow c place entries absolute entry below

theorem isAbsolute_of_mem_entriesBelow (c : Context) {path : String} (place : List String)
    (entries : List (String × Node)) (absolute : Path.isAbsolute path = true) :
    ∀ entry ∈ entriesBelow c path place entries, Path.isAbsolute entry.path = true := by
  cases entries with
  | nil =>
    intro entry mem
    rw [entriesBelow] at mem
    cases mem
  | cons named rest =>
    obtain ⟨name, node⟩ := named
    intro entry mem
    rw [entriesBelow, List.mem_append] at mem
    rcases mem with here | later
    · split at here
      · exact isAbsolute_of_mem_entriesOf _ _ node (Path.isAbsolute_join absolute name) entry here
      · cases here
    · exact isAbsolute_of_mem_entriesBelow c place rest absolute entry later

end

/-- Where a walk begins at an absolute path, all that it finds has one. -/
theorem isAbsolute_of_mem_listFiles {tree : FileTree} {global : OuterRules} {root base : String}
    {options : WalkOptions} {fired : Nat → Bool} {paths : List String}
    (absolute : Path.isAbsolute base = true)
    (listed : listFiles tree global root base options fired = .ok paths) :
    ∀ path ∈ paths, Path.isAbsolute path = true := by
  have all : ∀ entry ∈ entries tree global root base options, Path.isAbsolute entry.path = true := by
    intro entry mem
    rw [entries] at mem
    split at mem
    -- a file is its own listing, and a directory is walked
    · rw [List.mem_singleton] at mem
      rw [mem]
      exact absolute
    · split at mem
      · rw [List.mem_singleton] at mem
        rw [mem]
        exact absolute
      · exact isAbsolute_of_mem_entriesOf _ _ _ absolute entry mem
  intro path mem
  rw [listFiles] at listed
  split at listed
  · rw [collectFiles] at listed
    split at listed
    · cases listed
    · cases listed
      rw [List.mem_mergeSort, List.mem_map] at mem
      obtain ⟨entry, found, rfl⟩ := mem
      exact all entry ((List.mem_filter.mp found).1)
  · cases listed

end LanguageClient.Workspace

namespace LanguageClient

namespace FileService

/-- A server that asks for the content of a document by a URI gets that of an open document, or else
    that of a file. -/
def Means (uri file : String) : Prop :=
  ∀ (h : Host) (cancelled : Bool), content h ⟨⟨uri⟩⟩ cancelled =
    match h.document? uri with
    | some d => .ok (.ofDocument d)
    | none => if cancelled then .error .cancelled else diskItem h uri file

theorem isAbsolute_baseOf {h : Host} (absolute : Path.isAbsolute h.root = true) (params : FilesParams) :
    Path.isAbsolute (baseOf h params) = true := by
  rw [baseOf, Workspace.resolveBase]
  split
  · exact absolute
  · exact Path.isAbsolute_join absolute _

theorem means_of_toPath? {uri file : String} (read : Uri.toPath? uri = some file) :
    Means uri file := by
  intro h cancelled
  simp only [content, source, read]
  cases h.document? uri with
  | some d => rfl
  | none => cases cancelled <;> rfl

end FileService

namespace Uri

open FileService

/-- **Paths come back.**  A path that is absolute is read from the URI that is written for it, which
    is spelled in plain characters and escapes; no other path has that URI, and a server that asks for
    a content by it is given that of the file.  So does every URI that a server is given for the files
    of a workspace lead to the file that was found. -/
theorem path_round_trip {path : String} (absolute : Path.isAbsolute path = true) :
    toPath? (ofPath path) = some path ∧
    (∀ other, Path.isAbsolute other = true → ofPath other = ofPath path → other = path) ∧
    (∃ tail, ofPath path = fileScheme ++ String.ofList tail ∧ Spelled tail) ∧
    Means (ofPath path) path ∧
    (∀ (h : Host) (params : FilesParams) (fired : Nat → Bool) (ids : List TextDocumentIdentifier),
      Path.isAbsolute h.root = true → FileService.list h params fired = .ok ids →
      ∃ paths, h.listFiles (baseOf h params) fired = .ok paths ∧
        ids = paths.map (fun file => ⟨ofPath file⟩) ∧
        ∀ file ∈ paths, Path.isAbsolute file = true ∧ Means (ofPath file) file) := by
  refine ⟨toPath?_ofPath absolute, ?_, ?_, means_of_toPath? (toPath?_ofPath absolute), ?_⟩
  -- no other path has the URI, since both are read back from it
  · intro other absolute' same
    have back : some other = some path := by
      rw [← toPath?_ofPath absolute', same, toPath?_ofPath absolute]
    exact Option.some.inj back
  · refine ⟨encode path.toList, ?_, spelled_encode _⟩
    rw [ofPath, if_pos absolute]
  · intro h params fired ids rooted listed
    rw [FileService.list] at listed
    cases found : h.listFiles (baseOf h params) fired with
    | error e =>
      rw [found] at listed
      cases listed
    | ok paths =>
      rw [found] at listed
      cases listed
      refine ⟨paths, rfl, rfl, ?_⟩
      intro file mem
      have absolute' : Path.isAbsolute file = true :=
        Workspace.isAbsolute_of_mem_listFiles (isAbsolute_baseOf rooted params) found file mem
      exact ⟨absolute', means_of_toPath? (toPath?_ofPath absolute')⟩

/-- A blank, a percent sign and letters that are not ASCII. -/
theorem path_round_trip_spaced : Path.isAbsolute "/my dir/100%é/漢.rs" = true ∧
    toPath? (ofPath "/my dir/100%é/漢.rs") = some "/my dir/100%é/漢.rs" := by
  have absolute : Path.isAbsolute "/my dir/100%é/漢.rs" = true := by decide +kernel
  exact ⟨absolute, (path_round_trip absolute).1⟩

end Uri

end LanguageClient
