import LanguageClient.Json.Payload
/-!
# Settings

How long the client waits, and how it serves files.  A setting that is not given has a standard
value.
-/

namespace LanguageClient

/-- How long the client waits. -/
structure TimingSettings where
  timeoutSecs : UInt64 := 30
  initTimeoutSecs : UInt64 := 60
  shutdownTimeoutSecs : UInt64 := 2
  /-- How long a change of a whole text waits for a later one. -/
  syncDelayMs : UInt64 := 100
  /-- How long a question to the user stays open. -/
  promptTimeoutSecs : UInt64 := 60
  deriving DecidableEq, Repr, Inhabited

namespace TimingSettings

def members (s : TimingSettings) : List (String × Json) :=
  [("timeout_secs", toJson s.timeoutSecs), ("init_timeout_secs", toJson s.initTimeoutSecs),
    ("shutdown_timeout_secs", toJson s.shutdownTimeoutSecs),
    ("sync_delay_ms", toJson s.syncDelayMs), ("prompt_timeout_secs", toJson s.promptTimeoutSecs)]

instance : Payload TimingSettings where
  toJson s := .object s.members
  ofJson := Json.readRecord (do
    let standard : TimingSettings := {}
    let timeoutSecs ← .defaulted "timeout_secs" standard.timeoutSecs
    let initTimeoutSecs ← .defaulted "init_timeout_secs" standard.initTimeoutSecs
    let shutdownTimeoutSecs ← .defaulted "shutdown_timeout_secs" standard.shutdownTimeoutSecs
    let syncDelayMs ← .defaulted "sync_delay_ms" standard.syncDelayMs
    let promptTimeoutSecs ← .defaulted "prompt_timeout_secs" standard.promptTimeoutSecs
    return {
      timeoutSecs, initTimeoutSecs, shutdownTimeoutSecs, syncDelayMs, promptTimeoutSecs })
    "TimingSettings"

end TimingSettings

/-- How the client serves files. -/
structure FilesSettings where
  listing : Bool := true
  contents : Bool := true
  respectGitignore : Bool := true
  includeHidden : Bool := false
  deriving DecidableEq, Repr, Inhabited

namespace FilesSettings

def members (s : FilesSettings) : List (String × Json) :=
  [("xfiles", toJson s.listing), ("xcontent", toJson s.contents),
    ("respect_gitignore", toJson s.respectGitignore), ("include_hidden", toJson s.includeHidden)]

instance : Payload FilesSettings where
  toJson s := .object s.members
  ofJson := Json.readRecord (do
    let listing ← .defaulted "xfiles" true
    let contents ← .defaulted "xcontent" true
    let respectGitignore ← .defaulted "respect_gitignore" true
    let includeHidden ← .defaulted "include_hidden" false
    return { listing, contents, respectGitignore, includeHidden }) "FilesSettings"

end FilesSettings

end LanguageClient
