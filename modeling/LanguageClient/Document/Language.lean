import LanguageClient.Document.Basic
import LanguageClient.Glob
import LanguageClient.Path
import LanguageClient.Text.Lowercase
import LanguageClient.Uri
/-!
# Languages and selectors of documents

The language of a file is told by the extension of its name, in any case.  An extension without a
name of its own names the language itself; a file without extension is plain text.

A filter names a language, a scheme and a pattern for paths, each of them or none; it selects a
document that meets all the conditions it names.  A pattern that cannot be read is met by nothing.
A selector is a list of filters and selects what one of them selects.
-/

namespace LanguageClient

/-! ## Languages of files -/

/-- The language that an extension in lower case stands for. -/
def languageOfExtension : String → String
  | "rs" => "rust"
  | "ts" => "typescript"
  | "tsx" => "typescriptreact"
  | "js" | "mjs" | "cjs" => "javascript"
  | "jsx" => "javascriptreact"
  | "py" | "pyi" => "python"
  | "go" => "go"
  | "java" => "java"
  | "kt" | "kts" => "kotlin"
  | "c" | "h" => "c"
  | "cpp" | "cc" | "cxx" | "hpp" | "hxx" => "cpp"
  | "cs" => "csharp"
  | "rb" => "ruby"
  | "php" => "php"
  | "md" => "markdown"
  | "sh" | "bash" => "shellscript"
  | "yml" => "yaml"
  | ext => ext

def languageOfPath (path : String) : String :=
  match Path.extension path with
  | some ext => languageOfExtension (Text.toLower ext)
  | none => "plaintext"

/-! ## Selectors -/

/-- Conditions on a document. -/
structure DocumentFilter where
  language : Option String := none
  scheme : Option String := none
  pattern : Option String := none
  deriving DecidableEq, Repr, Inhabited

namespace DocumentFilter

instance : Payload DocumentFilter where
  toJson f := .object (Json.present "language" f.language
    ++ Json.present "scheme" f.scheme ++ Json.present "pattern" f.pattern)
  ofJson := Json.readRecord (do
    let language ← .defaulted "language" none
    let scheme ← .defaulted "scheme" none
    let pattern ← .defaulted "pattern" none
    return { language, scheme, pattern }) "DocumentFilter"

/-- Whether the path of a URI is one that a pattern stands for. -/
def patternSelects (pattern uri : String) : Bool :=
  match Glob.parse? pattern {}, Uri.toPath? uri with
  | some glob, some path => glob.isMatch path
  | _, _ => false

def selects (f : DocumentFilter) (languageId uri : String) : Bool :=
  f.language.all (· == languageId)
    && f.scheme.all (fun scheme => Uri.scheme? uri == some scheme)
    && f.pattern.all (patternSelects · uri)

end DocumentFilter

/-- Filters of which one has to hold. -/
structure DocumentSelector where
  filters : List DocumentFilter := []
  deriving DecidableEq, Repr, Inhabited

namespace DocumentSelector

/-- The selector for documents in one of the languages or at a path of one of the patterns. -/
def ofLanguagesAndPatterns (languages patterns : List String) : DocumentSelector :=
  ⟨languages.map (fun language => { language := some language })
    ++ patterns.map (fun pattern => { pattern := some pattern })⟩

/-- The filter that an item of a selector on the wire stands for: a language, or conditions.
    Anything else is left out. -/
def filterOfJson? (item : Json) : Option DocumentFilter :=
  match item with
  | .str language => some { language := some language }
  | item =>
    match (ofJson item : Decoded DocumentFilter) with
    | .ok filter => some filter
    | .error _ => none

/-- The selector that a value on the wire stands for, if it is a list. -/
def ofJson? (v : Json) : Option DocumentSelector :=
  v.items?.map fun items => ⟨items.filterMap filterOfJson?⟩

def isEmpty (s : DocumentSelector) : Bool :=
  s.filters.isEmpty

def selects (s : DocumentSelector) (languageId uri : String) : Bool :=
  s.filters.any (·.selects languageId uri)

end DocumentSelector

end LanguageClient
