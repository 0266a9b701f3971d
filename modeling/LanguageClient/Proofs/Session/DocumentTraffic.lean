import LanguageClient.Proofs.Session.Replay
/-!
# The traffic of documents

Events of the editor, questions, the delays of staged changes, starts and stops all write about the
same documents, each with its own guards.  Whatever turns they take, and whatever the server has agreed
to, a server is told of each document in the right order: `document_traffic` puts together what the
modules before have shown of the agreement with the bookkeeping, of the replay, and of sessions without
synchronisation.
-/

namespace LanguageClient.Scene

variable {setup : Setup} {moves : List Move} {c : Nat}

/-- What is told on a connection begins with the replay of the host's documents, or is the beginning of
    the replay. -/
theorem replay_first (moves : List Move) (c : Nat) :
    ((machine setup).after moves).session.told c = [] ∨ ∃ t docs, Listed setup moves t c docs ∧
      (((machine setup).after moves).session.told c <+: replayNotices setup.server.selector docs ∨
        replayNotices setup.server.selector docs <+: ((machine setup).after moves).session.told c) := by
  rcases quiet_or_ranOn moves with quiet | ⟨t, c', kind, ran⟩
  · exact Or.inl (quiet.silent c)
  by_cases same : c = c'
  · subst same
    by_cases none : kind = .none
    · subst none
      exact Or.inl (List.append_eq_nil_iff.mp ran.silent.silent).1
    · cases ran.replaying none with
      | waiting p here place untold closed => exact Or.inl untold
      | telling docs params rest listed here split =>
        exact Or.inr ⟨t, docs, listed, Or.inl (split ▸ List.prefix_append _ _)⟩
      | told docs listed begins => exact Or.inr ⟨t, docs, listed, Or.inr begins⟩
      | cut cannot begins =>
        exact begins.imp_right fun ⟨docs, listed, begins⟩ => ⟨t, docs, listed, Or.inl begins⟩
  · exact Or.inl (ran.on.silent c same)

/-- **The traffic of documents.**  However starts, stops, events, questions, delays and the server take
    their turns, on each connection:

    * what is told of one document is the beginning of a word of
      `(didOpen (didChange | willSave | didSave)* didClose)*`, and every notification about documents
      names its document;
    * whatever is told of documents comes after `initialized`;
    * first come the notifications of the documents that the host had open when the start took its list,
      in the order of the host, those that the selector chooses;
    * when the handshake has come to no synchronisation, nothing is told of documents. -/
theorem document_traffic (setup : Setup) (moves : List Move) (c : Nat) :
    (∀ uri, WellFormed (kindsOf uri (((machine setup).after moves).session.told c))) ∧
      (∀ n ∈ ((machine setup).after moves).session.told c, ∃ kind uri, n.Tells kind uri) ∧
      (∀ before m after,
        (((machine setup).after moves).session.connection c).sent = before ++ m :: after →
        m.documentNotification?.isSome = true → .notification initialized ∈ before) ∧
      (((machine setup).after moves).session.told c = [] ∨ ∃ t docs, Listed setup moves t c docs ∧
        (((machine setup).after moves).session.told c <+: replayNotices setup.server.selector docs ∨
          replayNotices setup.server.selector docs <+:
            ((machine setup).after moves).session.told c)) ∧
      ∀ r : InitializeResult, Recorded setup moves c r → r.capabilities.syncKind = .none →
        ((machine setup).after moves).session.told c = [] := by
  have taken := @taken_after setup moves c
  exact ⟨fun uri => wellFormed_of_serverState (taken.state uri), taken.readable,
    greeted_after moves c, replay_first moves c, fun r recorded none => told_of_none recorded none⟩

end LanguageClient.Scene
