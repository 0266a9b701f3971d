import LanguageClient.Protocol.Message
import LanguageClient.Proofs.Json.Faithful
import LanguageClient.Proofs.Json.Held
import LanguageClient.Proofs.Json.Reading
/-!
# Messages read back

A message that is written is read as the same message: of the same kind, which shows in whether
there is an id and a method, and with the same id, method, params, result and error.  Only a `null`
that stands for params, a result or data of an error is read as absent.  A message that was read
holds no such `null`, so what is written for it is read as it again.

Both are `Message.round_trip`.  They are asked of messages whose values are legible, since not every
number is read back from its text: an integer of more than 64 bits becomes a floating point number,
and that one may change again when it is read once more (`Message.wide_integer_changes`).
-/

namespace LanguageClient

open RecordReader (readRecord_object run_bind field_named optional_named optional_absent
  exists_of_readRecord exists_of_run_bind field_parts optional_parts)

/-! ## Simple values -/

theorem decode_text (s : String) : (ofJson (toJson s) : Decoded String) = .ok s := rfl

theorem RequestId.decode (id : RequestId) : (ofJson (toJson id) : Decoded RequestId) = .ok id := by
  cases id with
  | number n =>
    have read := decode_word n
    simp only [ofJson, toJson] at read ⊢
    simp only [read]
  | text s => rfl

/-! ## Records -/

/-- A present `null` counts as absent. -/
def withoutNull (o : Option Json) : Option Json :=
  o.filter (· ≠ .null)

theorem decode_json (v : Json) :
    (ofJson v : Decoded (Option Json)) = .ok (withoutNull (some v)) := by
  by_cases null : v = .null
  · subst null
    rfl
  · rw [decode_some null, withoutNull, Option.filter_some, if_pos (by simpa using null)]
    rfl

theorem map_toJson (o : Option Json) : o.map toJson = o := by
  cases o <;> rfl

/-- What `optional` makes of a member that is written when it has a value. -/
theorem optional_present {members : List (String × Json)} {name : String} {o : Option Json}
    (found : members.lookup name = o) :
    (RecordReader.optional name : RecordReader (Option Json)).run (.named members)
      = .ok (withoutNull o, .named members) := by
  cases o with
  | none => exact optional_absent found
  | some v => exact optional_named found (decode_json v)

/-- An error as it is read: data that is `null` is absent. -/
def ResponseError.settled (e : ResponseError) : ResponseError :=
  { e with data := withoutNull e.data }

theorem ResponseError.distinctNames (e : ResponseError) : Json.DistinctNames e.members := by
  cases data : e.data <;>
    simp [Json.DistinctNames, ResponseError.members, Json.present, data]

theorem ResponseError.decode (e : ResponseError) :
    (ofJson (toJson e) : Decoded ResponseError) = .ok e.settled := by
  have find := Json.lookup_sortMembers e.distinctNames
  have code : (Json.sortMembers e.members).lookup "code" = some (toJson e.code) := by
    rw [find]; rfl
  have message : (Json.sortMembers e.members).lookup "message" = some (toJson e.message) := by
    rw [find]; rfl
  have data : (Json.sortMembers e.members).lookup "data" = e.data := by
    rw [find, ResponseError.members, List.lookup_append, lookup_present, map_toJson]; rfl
  change Json.readRecord _ _ (.object e.members) = _
  rw [readRecord_object, run_bind (field_named code (decode_code _)),
    run_bind (field_named message (decode_text _)), run_bind (optional_present data)]
  rfl

theorem Request.distinctNames (r : Request) : Json.DistinctNames r.members := by
  cases params : r.params <;> simp [Json.DistinctNames, Request.members, Json.present, params]

theorem Request.decode (r : Request) : (ofJson (toJson r) : Decoded Request)
    = .ok { r with params := withoutNull r.params } := by
  have find := Json.lookup_sortMembers r.distinctNames
  have version : (Json.sortMembers r.members).lookup "jsonrpc" = some (toJson r.version) := by
    rw [find]; rfl
  have id : (Json.sortMembers r.members).lookup "id" = some (toJson r.id) := by
    rw [find]; rfl
  have method : (Json.sortMembers r.members).lookup "method" = some (toJson r.method) := by
    rw [find]; rfl
  have params : (Json.sortMembers r.members).lookup "params" = r.params := by
    rw [find, Request.members, List.lookup_append, lookup_present, map_toJson]; rfl
  change Json.readRecord _ _ (.object r.members) = _
  rw [readRecord_object, run_bind (field_named version (decode_text _)),
    run_bind (field_named id r.id.decode), run_bind (field_named method (decode_text _)),
    run_bind (optional_present params)]
  rfl

theorem Notification.distinctNames (n : Notification) : Json.DistinctNames n.members := by
  cases params : n.params <;> simp [Json.DistinctNames, Notification.members, Json.present, params]

theorem Notification.decode (n : Notification) : (ofJson (toJson n) : Decoded Notification)
    = .ok { n with params := withoutNull n.params } := by
  have find := Json.lookup_sortMembers n.distinctNames
  have version : (Json.sortMembers n.members).lookup "jsonrpc" = some (toJson n.version) := by
    rw [find]; rfl
  have method : (Json.sortMembers n.members).lookup "method" = some (toJson n.method) := by
    rw [find]; rfl
  have params : (Json.sortMembers n.members).lookup "params" = n.params := by
    rw [find, Notification.members, List.lookup_append, lookup_present, map_toJson]; rfl
  change Json.readRecord _ _ (.object n.members) = _
  rw [readRecord_object, run_bind (field_named version (decode_text _)),
    run_bind (field_named method (decode_text _)), run_bind (optional_present params)]
  rfl

/-- The members of a response before its error. -/
def Response.beforeError (r : Response) : List (String × Json) :=
  [("jsonrpc", toJson r.version), ("id", toJson r.id)] ++ Json.present "result" r.result

/-- The members of the value of a response. -/
def Response.objectMembers (r : Response) : List (String × Json) :=
  r.beforeError ++ Json.present "error" r.error

theorem Response.distinctNames (r : Response) : Json.DistinctNames r.objectMembers := by
  cases result : r.result <;> cases error : r.error <;>
    simp [Json.DistinctNames, Response.objectMembers, Response.beforeError, Json.present, result,
      error]

theorem Response.decode (r : Response) :
    (ofJson (toJson r) : Decoded Response) = .ok
      { r with result := withoutNull r.result, error := r.error.map ResponseError.settled } := by
  -- each name stands once, so that sorting does not change what is found under it
  have find := Json.lookup_sortMembers r.distinctNames
  have version : (Json.sortMembers r.objectMembers).lookup "jsonrpc" = some (toJson r.version) := by
    rw [find]; rfl
  have id : (Json.sortMembers r.objectMembers).lookup "id" = some (toJson r.id) := by
    rw [find]; rfl
  have result : (Json.sortMembers r.objectMembers).lookup "result" = r.result := by
    rw [find, Response.objectMembers, Response.beforeError, List.lookup_append,
      List.lookup_append, lookup_present,
      lookup_present_ne (by decide), map_toJson, Option.or_none]; rfl
  have error : (Json.sortMembers r.objectMembers).lookup "error" = r.error.map toJson := by
    rw [find, Response.objectMembers, Response.beforeError, List.lookup_append,
      List.lookup_append, lookup_present,
      lookup_present_ne (by decide), Option.or_none]; rfl
  have readId : (ofJson (toJson r.id) : Decoded (Option RequestId)) = .ok r.id := by
    cases known : r.id with
    | none => rfl
    | some id =>
      have present : toJson id ≠ .null := by cases id <;> simp [toJson]
      show (ofJson (toJson id) : Decoded (Option RequestId)) = _
      rw [decode_some present, id.decode]
      rfl
  have readError : (RecordReader.optional "error" : RecordReader (Option ResponseError)).run
      (.named (Json.sortMembers r.objectMembers))
      = .ok (r.error.map ResponseError.settled, .named (Json.sortMembers r.objectMembers)) := by
    cases failed : r.error with
    | none =>
      rw [failed] at error
      exact optional_absent error
    | some e =>
      rw [failed] at error
      have present : toJson e ≠ .null := fun null => by cases null
      refine optional_named error ?_
      rw [decode_some present, e.decode]
      rfl
  change Json.readRecord _ _ (.object r.objectMembers) = _
  rw [readRecord_object, run_bind (field_named version (decode_text _)),
    run_bind (optional_named id readId), run_bind (optional_present result), run_bind readError]
  rfl

/-! ## What holds of all that is written -/

section Written

variable {p : Json → Prop}

theorem forall_present {name : String} {o : Option Json} (each : ∀ v ∈ o, p v) :
    ∀ entry ∈ Json.present name o, p entry.2 := by
  intro entry mem
  obtain ⟨v, present, rfl⟩ := mem_present.mp mem
  exact each v present

variable (text : ∀ s, p (.str s))

include text

theorem Request.forall_members {r : Request} (id : p (toJson r.id)) (params : ∀ v ∈ r.params, p v) :
    ∀ entry ∈ r.members, p entry.2 := by
  simp only [Request.members, List.forall_mem_append, List.forall_mem_cons]
  exact ⟨⟨text _, id, text _, by simp⟩, forall_present params⟩

theorem Notification.forall_members {n : Notification} (params : ∀ v ∈ n.params, p v) :
    ∀ entry ∈ n.members, p entry.2 := by
  simp only [Notification.members, List.forall_mem_append, List.forall_mem_cons]
  exact ⟨⟨text _, text _, by simp⟩, forall_present params⟩

theorem Response.forall_beforeError {r : Response} (id : p (toJson r.id))
    (result : ∀ v ∈ r.result, p v) : ∀ entry ∈ r.beforeError, p entry.2 := by
  simp only [Response.beforeError, List.forall_mem_append, List.forall_mem_cons]
  exact ⟨⟨text _, id, by simp⟩, forall_present result⟩

theorem ResponseError.forall_members {e : ResponseError} (code : p (toJson e.code))
    (data : ∀ v ∈ e.data, p v) : ∀ entry ∈ e.members, p entry.2 := by
  simp only [ResponseError.members, List.forall_mem_append, List.forall_mem_cons]
  exact ⟨⟨code, text _, by simp⟩, forall_present data⟩

end Written

/-! ## What a record was read from -/

theorem Json.Legible.part {v w : Json} (legible : v.Legible) (mem : w ∈ v.parts) : w.Legible :=
  ⟨Json.Throughout.part legible.held mem, Json.Throughout.part legible.numbers mem⟩

/-- A value that was read for an optional part: a part of the whole, and not `null`. -/
def FromPart (v : Json) (o : Option Json) : Prop :=
  ∀ w ∈ o, w ∈ v.parts ∧ w ≠ .null

theorem FromPart.withoutNull {v : Json} {o : Option Json} (part : FromPart v o) :
    withoutNull o = o := by
  cases o with
  | none => rfl
  | some w =>
    rw [LanguageClient.withoutNull, Option.filter_some, if_pos (by simpa using (part w rfl).2)]

theorem FromPart.legible {v : Json} {o : Option Json} (part : FromPart v o) (legible : v.Legible) :
    ∀ w ∈ o, w.Legible :=
  fun w present => legible.part (part w present).1

theorem FromPart.depth {v : Json} {o : Option Json} {depth : Nat} (part : FromPart v o)
    (shallow : v.depth ≤ depth + 1) : ∀ w ∈ o, w.depth ≤ depth :=
  fun w present => Json.depth_part shallow (part w present).1

theorem fromPart_of_optional {v : Json} {o : Option Json} {s s₁ s' : Members} {name : String}
    (all : s.parts = v.parts) (before : s₁.parts ⊆ s.parts)
    (run : (RecordReader.optional name : RecordReader (Option Json)).run s₁ = .ok (o, s')) :
    FromPart v o := by
  intro w present
  obtain ⟨part, mem, notNull, same⟩ := (optional_parts run).1 w present
  cases same
  exact ⟨all ▸ before mem, notNull⟩

theorem ResponseError.fromPart {v : Json} {e : ResponseError} (read : ofJson v = .ok e) :
    FromPart v e.data := by
  obtain ⟨s, _, all, run⟩ := exists_of_readRecord read
  obtain ⟨code, s₁, first, run⟩ := exists_of_run_bind run
  obtain ⟨message, s₂, second, run⟩ := exists_of_run_bind run
  obtain ⟨data, s₃, third, run⟩ := exists_of_run_bind run
  cases run
  have before := List.Subset.trans (field_parts second).2 (field_parts first).2
  exact fromPart_of_optional all before third

theorem Request.fromPart {v : Json} {r : Request} (read : ofJson v = .ok r) :
    FromPart v r.params := by
  obtain ⟨s, _, all, run⟩ := exists_of_readRecord read
  obtain ⟨version, s₁, first, run⟩ := exists_of_run_bind run
  obtain ⟨id, s₂, second, run⟩ := exists_of_run_bind run
  obtain ⟨method, s₃, third, run⟩ := exists_of_run_bind run
  obtain ⟨params, s₄, fourth, run⟩ := exists_of_run_bind run
  cases run
  have before := List.Subset.trans (field_parts third).2
    (List.Subset.trans (field_parts second).2 (field_parts first).2)
  exact fromPart_of_optional all before fourth

theorem Notification.fromPart {v : Json} {n : Notification} (read : ofJson v = .ok n) :
    FromPart v n.params := by
  obtain ⟨s, _, all, run⟩ := exists_of_readRecord read
  obtain ⟨version, s₁, first, run⟩ := exists_of_run_bind run
  obtain ⟨method, s₂, second, run⟩ := exists_of_run_bind run
  obtain ⟨params, s₃, third, run⟩ := exists_of_run_bind run
  cases run
  have before := List.Subset.trans (field_parts second).2 (field_parts first).2
  exact fromPart_of_optional all before third

/-- The error of a response was read from a part, too. -/
theorem Response.fromPart {v : Json} {r : Response} (read : ofJson v = .ok r) :
    FromPart v r.result ∧ ∀ e ∈ r.error, ∃ w ∈ v.parts, ofJson w = .ok e := by
  obtain ⟨s, _, all, run⟩ := exists_of_readRecord read
  obtain ⟨version, s₁, first, run⟩ := exists_of_run_bind run
  obtain ⟨id, s₂, second, run⟩ := exists_of_run_bind run
  obtain ⟨result, s₃, third, run⟩ := exists_of_run_bind run
  obtain ⟨error, s₄, fourth, run⟩ := exists_of_run_bind run
  cases run
  have before := List.Subset.trans (optional_parts second).2 (field_parts first).2
  refine ⟨fromPart_of_optional all before third, fun e present => ?_⟩
  obtain ⟨w, mem, -, decoded⟩ := (optional_parts fourth).1 e present
  exact ⟨w, all ▸ before ((optional_parts third).2 mem), decoded⟩

/-! ## Messages -/

namespace Message

/-- A message as it is read: params, a result or data of an error that are `null` are absent. -/
def settled : Message → Message
  | request r => request { r with params := withoutNull r.params }
  | response r => response
    { r with result := withoutNull r.result, error := r.error.map ResponseError.settled }
  | notification n => notification { n with params := withoutNull n.params }

/-- The values that a message carries. -/
def payloads : Message → List Json
  | request r => r.params.toList
  | response r => r.result.toList ++ (r.error.bind (·.data)).toList
  | notification n => n.params.toList

/-- The value of a message is read as the message, of the kind that it is. -/
theorem ofJson_toJson (m : Message) : ofJson m.toJson = .ok m.settled := by
  cases m with
  | request r =>
    -- the kind is told by the names that are there: `id` and `method`
    have id : ((Message.request r).toJson.get? "id").isSome = true := by
      show ((Json.sortMembers r.members).lookup "id").isSome = true
      rw [Json.lookup_sortMembers r.distinctNames]; rfl
    have method : ((Message.request r).toJson.get? "method").isSome = true := by
      show ((Json.sortMembers r.members).lookup "method").isSome = true
      rw [Json.lookup_sortMembers r.distinctNames]; rfl
    rw [ofJson, id, method]
    show ((LanguageClient.ofJson (LanguageClient.toJson r) : Decoded Request).map _).mapError _ = _
    rw [r.decode]
    rfl
  | response r =>
    have id : ((Message.response r).toJson.get? "id").isSome = true := by
      show ((Json.sortMembers r.objectMembers).lookup "id").isSome = true
      rw [Json.lookup_sortMembers r.distinctNames]; rfl
    have method : ((Message.response r).toJson.get? "method").isSome = false := by
      show ((Json.sortMembers r.objectMembers).lookup "method").isSome = false
      rw [Json.lookup_sortMembers r.distinctNames, Response.objectMembers, Response.beforeError,
        List.lookup_append, List.lookup_append, lookup_present_ne (by decide),
        lookup_present_ne (by decide)]
      rfl
    rw [ofJson, id, method]
    show ((LanguageClient.ofJson (LanguageClient.toJson r) : Decoded Response).map _).mapError _ = _
    rw [r.decode]
    rfl
  | notification n =>
    have id : ((Message.notification n).toJson.get? "id").isSome = false := by
      show ((Json.sortMembers n.members).lookup "id").isSome = false
      rw [Json.lookup_sortMembers n.distinctNames, Notification.members, List.lookup_append,
        lookup_present_ne (by decide)]
      rfl
    have method : ((Message.notification n).toJson.get? "method").isSome = true := by
      show ((Json.sortMembers n.members).lookup "method").isSome = true
      rw [Json.lookup_sortMembers n.distinctNames]; rfl
    rw [ofJson, id, method]
    show ((LanguageClient.ofJson (LanguageClient.toJson n) : Decoded Notification).map _).mapError _
      = _
    rw [n.decode]
    rfl

/-! ### The text of a message -/

theorem legible_id (id : RequestId) : (LanguageClient.toJson id).Legible := by
  cases id with
  | number n =>
    have small := n.toNat_lt
    exact Json.legible_int ⟨by omega, by omega⟩
  | text s => exact Json.legible_str s

theorem legible_code (n : Int32) : (LanguageClient.toJson n).Legible :=
  Json.legible_int ⟨Int.le_trans (by decide) n.le_toInt,
    Int.le_trans (Int.le_of_lt n.toInt_lt) (by decide)⟩

theorem legible_optionalId (id : Option RequestId) : (LanguageClient.toJson id).Legible := by
  cases id with
  | none => exact Json.legible_null
  | some id => exact legible_id id

/-- The members of a message are read as those of its value. -/
theorem written_as_value {m : Message} (legible : ∀ v ∈ m.payloads, v.Legible) :
    (Json.obj m.members).NumbersReadBack ∧ (Json.obj m.members).ordered = m.toJson := by
  cases m with
  | request r =>
    have members := r.forall_members Json.legible_str (legible_id r.id) fun v mem =>
      legible v (Option.mem_toList.mpr mem)
    refine ⟨Json.numbersReadBack_obj members, ?_⟩
    show Json.object (Json.orderedMembers r.members) = Json.object r.members
    rw [Json.orderedMembers_of_legible members]
  | response r =>
    have before := r.forall_beforeError Json.legible_str (legible_optionalId r.id) fun v mem =>
      legible v (List.mem_append_left _ (Option.mem_toList.mpr mem))
    change (Json.obj (r.beforeError ++ _)).NumbersReadBack
      ∧ Json.object (Json.orderedMembers (r.beforeError ++ _)) = Json.object r.objectMembers
    rw [Response.objectMembers, Json.orderedMembers_append, Json.orderedMembers_of_legible before]
    cases failed : r.error with
    | none => exact ⟨Json.numbersReadBack_obj (by simpa [Json.present] using before), rfl⟩
    | some e =>
      -- only an error has members of its own below the message
      have inError := e.forall_members Json.legible_str (legible_code e.code) fun v mem =>
        legible v (List.mem_append_right _ (by rw [failed]; exact Option.mem_toList.mpr mem))
      refine ⟨Json.throughout_obj.mpr ⟨trivial, List.forall_mem_append.mpr
        ⟨fun entry mem => (before entry mem).numbers,
          List.forall_mem_singleton.mpr (Json.numbersReadBack_obj inError)⟩⟩, ?_⟩
      show Json.object (_ ++ [("error", Json.object (Json.orderedMembers e.members))]) = _
      rw [Json.orderedMembers_of_legible inError]
      rfl
  | notification n =>
    have members := n.forall_members Json.legible_str fun v mem =>
      legible v (Option.mem_toList.mpr mem)
    refine ⟨Json.numbersReadBack_obj members, ?_⟩
    show Json.object (Json.orderedMembers n.members) = Json.object n.members
    rw [Json.orderedMembers_of_legible members]

/-- **The text of a message is read as the message.** -/
theorem parse_text {m : Message} (legible : ∀ v ∈ m.payloads, v.Legible)
    (shallow : (Json.obj m.members).depth ≤ Json.maxDepth) : parse m.text = .ok m.settled := by
  obtain ⟨numbers, ordered⟩ := written_as_value legible
  have read : Json.parseChars? m.text.toList = some m.toJson :=
    ordered ▸ Json.parse_render numbers shallow
  rw [parse, parseChars, read]
  exact m.ofJson_toJson

/-! ### A message that was read -/

theorem exists_of_ofJson {v : Json} {m : Message} (read : ofJson v = .ok m) :
    (∃ r, m = request r ∧ LanguageClient.ofJson v = .ok r)
      ∨ (∃ r, m = response r ∧ LanguageClient.ofJson v = .ok r)
      ∨ ∃ n, m = notification n ∧ LanguageClient.ofJson v = .ok n := by
  unfold ofJson at read
  split at read
  case h_1 =>
    cases record : (LanguageClient.ofJson v : Decoded Request) with
    | error e => rw [record] at read; cases read
    | ok r => rw [record] at read; cases read; exact .inl ⟨r, rfl, rfl⟩
  case h_2 =>
    cases record : (LanguageClient.ofJson v : Decoded Response) with
    | error e => rw [record] at read; cases read
    | ok r => rw [record] at read; cases read; exact .inr (.inl ⟨r, rfl, rfl⟩)
  case h_3 =>
    cases record : (LanguageClient.ofJson v : Decoded Notification) with
    | error e => rw [record] at read; cases read
    | ok n => rw [record] at read; cases read; exact .inr (.inr ⟨n, rfl, rfl⟩)
  case h_4 => cases read

/-- No `null` is left in a message that was read. -/
theorem settled_of_ofJson {v : Json} {m : Message} (read : ofJson v = .ok m) : m.settled = m := by
  obtain ⟨r, rfl, record⟩ | ⟨r, rfl, record⟩ | ⟨n, rfl, record⟩ := exists_of_ofJson read
  · rw [settled, (Request.fromPart record).withoutNull]
  · obtain ⟨result, error⟩ := Response.fromPart record
    have settledError : r.error.map ResponseError.settled = r.error := by
      cases failed : r.error with
      | none => rfl
      | some e =>
        obtain ⟨w, -, decoded⟩ := error e failed
        rw [Option.map_some, ResponseError.settled, (ResponseError.fromPart decoded).withoutNull]
    rw [settled, result.withoutNull, settledError]
  · rw [settled, (Notification.fromPart record).withoutNull]

/-- What a message carries was legible in the value that it was read from. -/
theorem legible_of_ofJson {v : Json} {m : Message} (read : ofJson v = .ok m) (legible : v.Legible) :
    ∀ w ∈ m.payloads, w.Legible := by
  obtain ⟨r, rfl, record⟩ | ⟨r, rfl, record⟩ | ⟨n, rfl, record⟩ := exists_of_ofJson read
  · exact fun w mem => (Request.fromPart record).legible legible w (Option.mem_toList.mp mem)
  · obtain ⟨result, error⟩ := Response.fromPart record
    intro w mem
    rcases List.mem_append.mp mem with mem | mem
    · exact result.legible legible w (Option.mem_toList.mp mem)
    · obtain ⟨e, failed, data⟩ := Option.bind_eq_some_iff.mp (Option.mem_toList.mp mem)
      obtain ⟨whole, part, decoded⟩ := error e failed
      exact (ResponseError.fromPart decoded).legible (legible.part part) w data
  · exact fun w mem => (Notification.fromPart record).legible legible w (Option.mem_toList.mp mem)

/-- A message is not nested deeper than the value that it was read from. -/
theorem depth_of_ofJson {v : Json} {m : Message} {depth : Nat} (read : ofJson v = .ok m)
    (shallow : v.depth ≤ depth + 2) : (Json.obj m.members).depth ≤ depth + 2 := by
  -- texts, ids and codes are nested in nothing
  have text : ∀ {d} s, (Json.str s).depth ≤ d := fun _ => Nat.zero_le _
  have id : ∀ {d} (id : RequestId), (LanguageClient.toJson id).depth ≤ d := fun id => by
    cases id <;> exact Nat.zero_le _
  rw [Json.depth_obj_le]
  obtain ⟨r, rfl, record⟩ | ⟨r, rfl, record⟩ | ⟨n, rfl, record⟩ := exists_of_ofJson read
  · have params := (Request.fromPart record).depth shallow
    exact r.forall_members (p := fun w => w.depth ≤ depth + 1) text (id r.id) params
  · obtain ⟨result, error⟩ := Response.fromPart record
    have id : (LanguageClient.toJson r.id).depth ≤ depth + 1 := by
      cases r.id with
      | none => exact Nat.zero_le _
      | some known => exact id known
    have before := r.forall_beforeError (p := fun w => w.depth ≤ depth + 1) text id
      (result.depth shallow)
    refine List.forall_mem_append.mpr ⟨before, fun entry mem => ?_⟩
    obtain ⟨w, present, rfl⟩ := mem_present.mp mem
    obtain ⟨e, failed, rfl⟩ := Option.map_eq_some_iff.mp present
    obtain ⟨whole, part, decoded⟩ := error e failed
    have data := (ResponseError.fromPart decoded).depth (Json.depth_part shallow part)
    exact Json.depth_obj_le.mpr
      (e.forall_members (p := fun w => w.depth ≤ depth) text (Nat.zero_le _) data)
  · have params := (Notification.fromPart record).depth shallow
    exact n.forall_members (p := fun w => w.depth ≤ depth + 1) text params

/-- **Reading and writing messages.**  The text of a message whose values are legible is read as
    that message; and what is written for a message that was read is read as it again, if all
    numbers of the text were read back. -/
theorem round_trip :
    (∀ m : Message, (∀ v ∈ m.payloads, v.Legible) → (Json.obj m.members).depth ≤ Json.maxDepth →
      parse m.text = .ok m.settled) ∧
    ∀ (s : String) (v : Json) (m : Message), Json.parse? s = some v → v.NumbersReadBack →
      parse s = .ok m → parse m.text = .ok m := by
  refine ⟨fun m => parse_text, fun s v m value numbers read => ?_⟩
  obtain ⟨held, shallow⟩ := Json.heldWithin_of_parse value
  have record : ofJson v = .ok m := by
    have value : Json.parseChars? s.toList = some v := value
    rwa [parse, parseChars, value] at read
  rw [parse_text (legible_of_ofJson record ⟨held, numbers⟩) (depth_of_ofJson record shallow),
    settled_of_ofJson record]

/-- An error with data that the client writes, and one that a server lists, with `null` for data. -/
theorem round_trip_error :
    parse (text (.response ⟨"2.0", none, some .null, some ⟨1, "x", some (.arr [.int 7, .null])⟩⟩))
      = .ok (.response ⟨"2.0", none, none, some ⟨1, "x", some (.arr [.int 7, .null])⟩⟩) ∧
    parse (text (.response ⟨"2.0", some (.number 7), none, some ⟨1, "x", none⟩⟩))
      = .ok (.response ⟨"2.0", some (.number 7), none, some ⟨1, "x", none⟩⟩) := by
  constructor
  · refine round_trip.1 (.response
      ⟨"2.0", none, some .null, some ⟨1, "x", some (.arr [.int 7, .null])⟩⟩) ?_ (by decide)
    refine List.forall_mem_cons.mpr ⟨Json.legible_null, List.forall_mem_singleton.mpr ?_⟩
    exact Json.legible_arr (List.forall_mem_cons.mpr
      ⟨Json.legible_int (by decide), List.forall_mem_singleton.mpr Json.legible_null⟩)
  · refine round_trip.2 "\x7b\"jsonrpc\":\"2.0\",\"id\":7,\"error\":[1,\"x\",null]\x7d"
      (.obj [("error", .arr [.int 1, .str "x", .null]), ("id", .int 7), ("jsonrpc", .str "2.0")])
      _ (by decide +kernel) ?_ (by decide +kernel)
    simp [Json.NumbersReadBack, Json.throughout_obj, Json.throughout_arr, Json.Fits64]

/-- An integer of more than 64 bits is read as a floating point number, and the text of that one as
    still another. -/
theorem wide_integer_changes :
    ∃ m, parse ("\x7b\"jsonrpc\":\"2.0\",\"method\":\"m\",\"params\":"
        ++ "[1000000000000000000000000000000000000000000]\x7d") = .ok m
      ∧ parse m.text ≠ .ok m :=
  ⟨.notification { method := "m", params := some (.arr [.float ⟨5235141515912716384⟩]) },
    by decide +kernel, by decide +kernel⟩

end Message

end LanguageClient
