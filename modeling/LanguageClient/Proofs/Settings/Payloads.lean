import LanguageClient.Settings.Server
import LanguageClient.Proofs.Json.Faithful
/-!
# The JSON forms of settings

Settings are records all of whose members have a value of their own when they are absent, and that
value is written.  How a server is reached shows in the members of the server: there is a command,
or else there is an address.  What is written for a server that listens has no member for a command,
so it is never taken for a process, whatever else the server was read from.
-/

namespace LanguageClient

open RecordReader (run_bind run_bind_error exists_of_run_bind)

/-- A word that is always written, and has a value of its own when it is absent. -/
theorem rereads_word (name : String) (n : UInt64) :
    (RecordReader.defaulted name n).Rereads [] fun x => [.always name x] :=
  .defaulted (toJson n) (Json.throughout_int.mpr (by have := n.toNat_lt; constructor <;> omega))
    (decode_word n)

instance : Faithful TimingSettings :=
  .ofRecord
    (fun s => [.always "timeout_secs" s.timeoutSecs,
      .always "init_timeout_secs" s.initTimeoutSecs,
      .always "shutdown_timeout_secs" s.shutdownTimeoutSecs,
      .always "sync_delay_ms" s.syncDelayMs, .always "prompt_timeout_secs" s.promptTimeoutSecs])
    readAsRecord (fun _ => rfl) (fun _ => by simp)
    (.bind (rereads_word _ _) fun _ => .bind (rereads_word _ _) fun _ =>
      .bind (rereads_word _ _) fun _ => .bind (rereads_word _ _) fun _ =>
      .bind (rereads_word _ _) fun _ => .pure rfl)

theorem rereads_flag (name : String) (b : Bool) :
    (RecordReader.defaulted name b).Rereads [] fun x => [.always name x] :=
  .defaulted (toJson b) (Json.throughout_bool.mpr trivial) rfl

instance : Faithful FilesSettings :=
  .ofRecord
    (fun s => [.always "xfiles" s.listing, .always "xcontent" s.contents,
      .always "respect_gitignore" s.respectGitignore, .always "include_hidden" s.includeHidden])
    readAsRecord (fun _ => rfl) (fun _ => by simp)
    (.bind (rereads_flag _ _) fun _ => .bind (rereads_flag _ _) fun _ =>
      .bind (rereads_flag _ _) fun _ => .bind (rereads_flag _ _) fun _ => .pure rfl)

theorem rereads_list {α : Type} [Payload α] [Faithful α] (name : String) :
    (RecordReader.defaulted name ([] : List α)).Rereads [] fun x => [.always name x] :=
  .defaulted (.arr []) (Json.throughout_arr.mpr ⟨trivial, by simp⟩) rfl

namespace ServerTransport

/-- The places of a transport; there is none for a command when the server listens. -/
def slots : ServerTransport → List Slot
  | process command args => [.always "command" command, .always "args" args]
  | socket address => [⟨"command", none⟩, .always "address" address]

theorem process_rereads : processReader.Rereads [] slots :=
  .bind .field fun _ => .bind (rereads_list _) fun _ => .pure rfl

theorem written_slots (t : ServerTransport) : written t.slots = t.members := by
  cases t <;> rfl

variable {s : Members} {found : ServerTransport × Members}

theorem run_process (run : processReader.run s = .ok found) : reader.run s = .ok found := by
  rw [StateT.run, reader, run]

theorem run_socket {e : DecodeError} (refused : processReader.run s = .error e)
    (run : socketReader.run s = .ok found) : reader.run s = .ok found := by
  rw [StateT.run, reader, refused, run]

/-- A transport was read as a process, or else as a socket. -/
theorem run_cases (run : reader.run s = .ok found) :
    processReader.run s = .ok found ∨ socketReader.run s = .ok found := by
  rw [StateT.run, reader] at run
  split at run
  case h_1 process => cases run; exact .inl process
  case h_2 socket _ => cases run; exact .inr socket
  case h_3 => cases run

/-- Members without a command are not those of a process. -/
theorem run_process_absent {members : List (String × Json)}
    (absent : members.lookup "command" = none) :
    processReader.run (.named members) = .error (.missing "command") :=
  run_bind_error (RecordReader.field_absent absent)

theorem rereads : reader.Rereads [] slots := by
  intro s s' t rest _ run
  refine ⟨List.nil_subset _, ?_⟩
  rcases run_cases run with process | socket
  · obtain ⟨-, settles⟩ := process_rereads s s' t rest (by simp) process
    exact ⟨settles.held, settles.rest, fun fills => run_process (settles.again fills)⟩
  · obtain ⟨address, s₁, read, rest'⟩ := exists_of_run_bind socket
    cases rest'
    obtain ⟨-, settles⟩ := RecordReader.Rereads.field _ _ _ rest (by simp) read
    refine ⟨List.forall_mem_cons.mpr ⟨fun _ none => (by cases none), settles.held⟩, settles.rest,
      fun fills => run_socket (run_process_absent (fills _ List.mem_cons_self)) ?_⟩
    have again := settles.again (fills.mono (List.subset_cons_self _ _))
    rw [socketReader, run_bind again]
    rfl

end ServerTransport

instance : Faithful ServerConfig :=
  .ofRecord
    (fun s => [.always "name" s.name] ++ s.transport.slots
      ++ [.always "languages" s.languages, .always "patterns" s.patterns,
        .present "initialization_options" s.initializationOptions])
    readAsOpenRecord
    (fun s => congrArg Json.object (by simp [ServerTransport.written_slots, ServerConfig.members]))
    (fun s => by cases s.transport <;> simp [ServerTransport.slots])
    (.bind .field fun _ => .bind ServerTransport.rereads fun _ => .bind (rereads_list _) fun _ =>
      .bind (rereads_list _) fun _ => .bind .defaulted_none fun _ => .pure (by simp))

instance : Faithful ClientConfig :=
  .ofRecord
    (fun c => [.always "lsp" c.timing, .always "files" c.files, .always "servers" c.servers])
    readAsRecord (fun _ => rfl) (fun _ => by simp)
    (.bind (.defaulted (.obj []) (Json.throughout_obj.mpr ⟨.nil, by simp⟩) rfl) fun _ =>
      .bind (.defaulted (.obj []) (Json.throughout_obj.mpr ⟨.nil, by simp⟩) rfl) fun _ =>
      .bind (rereads_list _) fun _ => .pure rfl)

end LanguageClient
