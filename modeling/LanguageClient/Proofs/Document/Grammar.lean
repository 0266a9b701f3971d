import LanguageClient.Protocol.Message
import Mathlib.Computability.RegularExpressions
/-!
# The grammar of what a server is told of a document

A server may be told of a document only while it has the document open: for each URI the
notifications form a word of `(didOpen (didChange | willSave | didSave)* didClose)*`, or the beginning
of one.  Kind, URI and text of a notification are read off the wire.

`DocumentState.take` reads the notifications of a document one by one, as a server would, and also
keeps the text that it was given last.  What can be read to its end is well formed
(`wellFormed_of_serverState`), so a session has to be followed by the state of the server only.
-/

namespace LanguageClient

/-! ## Notifications about documents -/

/-- What a notification tells of a document. -/
inductive NoticeKind where
  | didOpen
  | didChange
  | willSave
  | didSave
  | didClose
  deriving DecidableEq, Repr

namespace NoticeKind

/-- The kind of the notifications with a method. -/
def ofMethod? : String → Option NoticeKind
  | "textDocument/didOpen" => some didOpen
  | "textDocument/didChange" => some didChange
  | "textDocument/willSave" => some willSave
  | "textDocument/didSave" => some didSave
  | "textDocument/didClose" => some didClose
  | _ => none

/-- Whether the server has to have the document open already, and has it open afterwards. -/
def isInner : NoticeKind → Bool
  | didChange | willSave | didSave => true
  | didOpen | didClose => false

end NoticeKind

namespace Notification

/-- What a notification tells of a document; none when it is about something else. -/
def kind? (n : Notification) : Option NoticeKind :=
  NoticeKind.ofMethod? n.method

/-- The document that the parameters name. -/
def uri? (n : Notification) : Option String :=
  ((n.params.bind (·.get? "textDocument")).bind (·.get? "uri")).bind (·.text?)

/-- The whole text of the document that a notification gives. -/
def text? (n : Notification) : Option String :=
  match n.kind? with
  | some .didOpen => ((n.params.bind (·.get? "textDocument")).bind (·.get? "text")).bind (·.text?)
  | some .didChange =>
    match (n.params.bind (·.get? "contentChanges")).bind (·.items?) with
    | some [change] =>
      if (change.get? "range").isNone then (change.get? "text").bind (·.text?) else none
    | _ => none
  | _ => none

/-- Whether a notification tells something of a document. -/
def concerns (uri : String) (n : Notification) : Bool :=
  n.kind?.isSome && n.uri? == some uri

end Notification

/-- A message that tells something of some document. -/
def Message.documentNotification? : Message → Option Notification
  | .notification n => if n.kind?.isSome then some n else none
  | _ => none

/-- What some messages tell of documents, in order. -/
def documentNotifications (messages : List Message) : List Notification :=
  messages.filterMap (·.documentNotification?)

@[simp] theorem documentNotifications_append (ms more : List Message) :
    documentNotifications (ms ++ more) = documentNotifications ms ++ documentNotifications more := by
  simp [documentNotifications]

@[simp] theorem documentNotifications_responses (rs : List Response) :
    documentNotifications (rs.map .response) = [] := by
  simp [documentNotifications, Message.documentNotification?]

theorem documentNotifications_notification {n : Notification} {kind : NoticeKind}
    (tells : n.kind? = some kind) : documentNotifications [.notification n] = [n] := by
  simp [documentNotifications, Message.documentNotification?, tells]

/-! ## The grammar -/

/-- What may be told of a document while it is open. -/
def openGrammar : RegularExpression NoticeKind :=
  .star (.char .didChange + .char .willSave + .char .didSave)

/-- What may be told of a document. -/
def documentGrammar : RegularExpression NoticeKind :=
  .star (.char .didOpen * openGrammar * .char .didClose)

/-- What some notifications tell of a document, one after another. -/
def kindsOf (uri : String) (ns : List Notification) : List NoticeKind :=
  (ns.filter (·.concerns uri)).filterMap (·.kind?)

/-- What is told is the beginning of a word of the grammar. -/
def WellFormed (kinds : List NoticeKind) : Prop :=
  ∃ rest, kinds ++ rest ∈ documentGrammar.matches'

/-! ## What a server has of a document -/

/-- What a server has of a document. -/
inductive DocumentState where
  | closed
  /-- The document is open, with the text that was given last if it was given as a whole. -/
  | opened (text : Option String)
  deriving DecidableEq, Repr

namespace DocumentState

/-- Whether the server has the document open. -/
def isOpen : DocumentState → Bool
  | closed => false
  | opened _ => true

/-- A server takes a notification of a kind, with the text that it gives; none when it must not come
    now. -/
def takeKind (state : DocumentState) (kind : NoticeKind) (text : Option String) :
    Option DocumentState :=
  match state, kind with
  | closed, .didOpen => some (opened text)
  | opened _, .didChange => some (opened text)
  | opened text, .willSave | opened text, .didSave => some (opened text)
  | opened _, .didClose => some closed
  | _, _ => none

/-- A server takes a notification about the document. -/
def take (state : DocumentState) (n : Notification) : Option DocumentState :=
  n.kind?.bind fun kind => state.takeKind kind n.text?

/-- A server is told of a document what the grammar allows. -/
theorem takeKind_cases {state state' : DocumentState} {kind : NoticeKind} {text : Option String}
    (took : state.takeKind kind text = some state') :
    state.isOpen = false ∧ kind = .didOpen ∧ state'.isOpen = true ∨
    state.isOpen = true ∧ kind.isInner = true ∧ state'.isOpen = true ∨
    state.isOpen = true ∧ kind = .didClose ∧ state'.isOpen = false := by
  cases state <;> cases kind <;> simp_all [takeKind, isOpen, NoticeKind.isInner] <;> simp [← took]

end DocumentState

/-- What a server has of a document when it was told of it as some notifications say; none when one of
    them must not have come. -/
def serverState (uri : String) (ns : List Notification) : Option DocumentState :=
  (ns.filter (·.concerns uri)).foldlM DocumentState.take .closed

section

variable {uri : String} {ns : List Notification} {n : Notification} {state state' : DocumentState}

@[simp] theorem serverState_nil (uri : String) : serverState uri [] = some .closed := rfl

theorem serverState_append (uri : String) (ns more : List Notification) :
    serverState uri (ns ++ more) =
      (serverState uri ns).bind fun state =>
        (more.filter (·.concerns uri)).foldlM DocumentState.take state := by
  simp [serverState]

/-- A notification about the document is taken. -/
theorem serverState_concat (concerns : n.concerns uri = true) (before : serverState uri ns = some state)
    (took : state.take n = some state') : serverState uri (ns ++ [n]) = some state' := by
  simp [serverState_append, before, concerns, took]

/-- A notification about something else changes nothing. -/
theorem serverState_concat_other (other : n.concerns uri = false) :
    serverState uri (ns ++ [n]) = serverState uri ns := by
  simp [serverState_append, other]

theorem serverState_ne_none_of_append {more : List Notification}
    (whole : serverState uri (ns ++ more) ≠ none) : serverState uri ns ≠ none := by
  intro none
  simp [serverState_append, none] at whole

/-! ## Reading and the grammar -/

/-- A language holds whatever is composed of its words. -/
theorem append_mem_kstar {α : Type} {l : Language α} {word last : List α}
    (mem : word ∈ KStar.kstar l) (mem' : last ∈ l) : word ++ last ∈ KStar.kstar l := by
  obtain ⟨words, rfl, each⟩ := Language.mem_kstar.mp mem
  refine Language.mem_kstar.mpr ⟨words ++ [last], by simp, fun w among => ?_⟩
  rcases List.mem_append.mp among with among | among
  · exact each w among
  · obtain rfl := List.mem_singleton.mp among
    exact mem'

/-- What is told of an open document may go on with whatever needs it open. -/
theorem append_mem_openGrammar {inner : List NoticeKind} {kind : NoticeKind}
    (mem : inner ∈ openGrammar.matches') (isInner : kind.isInner = true) :
    inner ++ [kind] ∈ openGrammar.matches' := by
  refine append_mem_kstar mem ?_
  simp only [RegularExpression.matches'_add, RegularExpression.matches'_char, Language.mem_add]
  cases kind with
  | didChange => exact Or.inl (Or.inl rfl)
  | willSave => exact Or.inl (Or.inr rfl)
  | didSave => exact Or.inr rfl
  | didOpen | didClose => simp [NoticeKind.isInner] at isInner

/-- A document that is open may be closed. -/
theorem closing_mem_documentGrammar {word inner : List NoticeKind}
    (mem : word ∈ documentGrammar.matches') (mem' : inner ∈ openGrammar.matches') :
    word ++ .didOpen :: inner ++ [.didClose] ∈ documentGrammar.matches' := by
  have session : [.didOpen] ++ inner ++ [.didClose] ∈
      (RegularExpression.char NoticeKind.didOpen * openGrammar *
        RegularExpression.char NoticeKind.didClose).matches' := by
    simp only [RegularExpression.matches'_mul, RegularExpression.matches'_char]
    exact Language.append_mem_mul (Language.append_mem_mul rfl mem') rfl
  have split : word ++ .didOpen :: inner ++ [.didClose] =
      word ++ ([.didOpen] ++ inner ++ [.didClose]) := by simp
  rw [split]
  exact append_mem_kstar mem session

theorem kindsOf_concat {kind : NoticeKind} (about : n.concerns uri = true) (tells : n.kind? = some kind) :
    kindsOf uri (ns ++ [n]) = kindsOf uri ns ++ [kind] := by
  simp [kindsOf, about, tells]

theorem kindsOf_concat_other (other : n.concerns uri = false) :
    kindsOf uri (ns ++ [n]) = kindsOf uri ns := by
  simp [kindsOf, other]

/-- The kinds of what is told of a document follow the state of the server: while the document is
    closed they are a word of the grammar, and while it is open they lack only a closing. -/
theorem kinds_of_serverState (read : serverState uri ns = some state) :
    (state.isOpen = false → kindsOf uri ns ∈ documentGrammar.matches') ∧
    (state.isOpen = true → ∃ word inner, kindsOf uri ns = word ++ .didOpen :: inner ∧
      word ∈ documentGrammar.matches' ∧ inner ∈ openGrammar.matches') := by
  -- along the notifications, the last one at a time
  induction ns using List.reverseRecOn generalizing state with
  | nil =>
    obtain rfl : DocumentState.closed = state := by simpa using read
    exact ⟨fun _ => Language.nil_mem_kstar _, by simp [DocumentState.isOpen]⟩
  | append_singleton ns n ih =>
    cases about : n.concerns uri with
    | false =>
      rw [serverState_concat_other about] at read
      rw [kindsOf_concat_other about]
      exact ih read
    | true =>
      obtain ⟨before, readBefore, took⟩ : ∃ before, serverState uri ns = some before ∧
          before.take n = some state := by
        simpa [serverState_append, about, Option.bind_eq_some_iff] using read
      obtain ⟨kind, tells, took⟩ := Option.bind_eq_some_iff.mp took
      rw [kindsOf_concat about tells]
      obtain ⟨closed, opened⟩ := ih readBefore
      -- an opening begins a new word, a closing completes the one begun
      rcases DocumentState.takeKind_cases took with
        ⟨was, rfl, is⟩ | ⟨was, inner, is⟩ | ⟨was, rfl, is⟩
      · refine ⟨by simp [is], fun _ => ⟨_, [], rfl, closed was, Language.nil_mem_kstar _⟩⟩
      · obtain ⟨word, between, split, mem, mem'⟩ := opened was
        refine ⟨by simp [is], fun _ => ⟨word, between ++ [kind], by simp [split], mem, ?_⟩⟩
        exact append_mem_openGrammar mem' inner
      · obtain ⟨word, between, split, mem, mem'⟩ := opened was
        refine ⟨fun _ => ?_, by simp [is]⟩
        rw [split]
        exact closing_mem_documentGrammar mem mem'

/-- **Reading and the grammar.**  When a server could take all that it was told of a document, what it
    was told is well formed. -/
theorem wellFormed_of_serverState (read : serverState uri ns ≠ none) : WellFormed (kindsOf uri ns) := by
  obtain ⟨state, read⟩ := Option.ne_none_iff_exists'.mp read
  obtain ⟨closed, opened⟩ := kinds_of_serverState read
  cases isOpen : state.isOpen with
  | false => exact ⟨[], by simpa using closed isOpen⟩
  | true =>
    obtain ⟨word, inner, split, mem, mem'⟩ := opened isOpen
    exact ⟨[.didClose], split ▸ closing_mem_documentGrammar mem mem'⟩

end

end LanguageClient
