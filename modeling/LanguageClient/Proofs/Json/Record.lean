import LanguageClient.Json.Payload
import LanguageClient.Proofs.Json.Structure
/-!
# Records

How a record is read, member by member.  From an object, `field` and `optional` find their member
by its name and leave the members as they are, which is all it takes to say what an object that was
written is read as.  From an object or from an array, what they give was read from a part of it,
and `optional` never gives `null`; which part that is, its name or its place tells (`Left`).
-/

namespace LanguageClient

namespace RecordReader

variable {α β : Type} {s s' : Members} {name : String}

/-! ## One member after the other -/

theorem run_bind {reader : RecordReader α} {next : α → RecordReader β} {x : α}
    (first : reader.run s = .ok (x, s')) : (reader >>= next).run s = (next x).run s' := by
  change Except.bind (reader.run s) _ = _
  rw [first]
  rfl

theorem run_bind_error {reader : RecordReader α} {next : α → RecordReader β} {e : DecodeError}
    (refused : reader.run s = .error e) : (reader >>= next).run s = .error e := by
  change Except.bind (reader.run s) _ = _
  rw [refused]
  rfl

/-- A part of a record that was read, and what is read after it. -/
theorem exists_of_run_bind {reader : RecordReader α} {next : α → RecordReader β} {y : β}
    {s'' : Members} (run : (reader >>= next).run s = .ok (y, s'')) :
    ∃ x s', reader.run s = .ok (x, s') ∧ (next x).run s' = .ok (y, s'') := by
  change Except.bind (reader.run s) _ = _ at run
  cases first : reader.run s with
  | error e => rw [first] at run; cases run
  | ok first' =>
    rw [first] at run
    exact ⟨first'.1, first'.2, rfl, run⟩

/-! ## Members by name -/

section Named

variable [Payload α] {members : List (String × Json)} {v : Json}

theorem field_named {x : α} (found : members.lookup name = some v) (decoded : ofJson v = .ok x) :
    (field name : RecordReader α).run (.named members) = .ok (x, .named members) := by
  have taken : (take? name).run (.named members) = .ok (some v, .named members) := by
    rw [StateT.run, take?, found]
  rw [field, run_bind taken]
  change Except.bind (ofJson v) _ = _
  rw [decoded]
  rfl

theorem field_absent (absent : members.lookup name = none) :
    (field name : RecordReader α).run (.named members) = .error (.missing name) := by
  have taken : (take? name).run (.named members) = .ok (none, .named members) := by
    rw [StateT.run, take?, absent]
  rw [field, run_bind taken]
  rfl

theorem optional_named {o : Option α} (found : members.lookup name = some v)
    (decoded : (ofJson v : Decoded (Option α)) = .ok o) :
    (optional name : RecordReader (Option α)).run (.named members) = .ok (o, .named members) := by
  have taken : (take? name).run (.named members) = .ok (some v, .named members) := by
    rw [StateT.run, take?, found]
  rw [optional, run_bind taken]
  change Except.bind (ofJson v) _ = _
  rw [decoded]
  rfl

theorem optional_absent (absent : members.lookup name = none) :
    (optional name : RecordReader (Option α)).run (.named members)
      = .ok (none, .named members) := by
  have taken : (take? name).run (.named members) = .ok (none, .named members) := by
    rw [StateT.run, take?, absent]
  rw [optional, run_bind taken]
  rfl

theorem defaulted_named {value x : α} (found : members.lookup name = some v)
    (decoded : ofJson v = .ok x) :
    (defaulted name value : RecordReader α).run (.named members) = .ok (x, .named members) := by
  have taken : (take? name).run (.named members) = .ok (some v, .named members) := by
    rw [StateT.run, take?, found]
  rw [defaulted, run_bind taken]
  change Except.bind (ofJson v) _ = _
  rw [decoded]
  rfl

theorem defaulted_absent {value : α} (absent : members.lookup name = none) :
    (defaulted name value : RecordReader α).run (.named members)
      = .ok (value, .named members) := by
  have taken : (take? name).run (.named members) = .ok (none, .named members) := by
    rw [StateT.run, take?, absent]
  rw [defaulted, run_bind taken]
  rfl

end Named

/-- A record is read from an object that was built of its members. -/
theorem readRecord_object (reader : RecordReader α) (name : String)
    (members : List (String × Json)) : Json.readRecord reader name (.object members)
      = (reader.run (.named (Json.sortMembers members))).map (·.1) := rfl

end RecordReader

/-! ## Options -/

section Options

variable {α : Type} [Payload α] {v : Json}

theorem decode_some (present : v ≠ .null) :
    (ofJson v : Decoded (Option α)) = (ofJson v).map some := by
  cases v with
  | null => exact absurd rfl present
  | _ => rfl

theorem some_of_decode {x : α} (decoded : (ofJson v : Decoded (Option α)) = .ok (some x)) :
    v ≠ .null ∧ ofJson v = .ok x := by
  by_cases null : v = .null
  · subst null
    cases decoded
  · rw [decode_some null] at decoded
    cases inner : (ofJson v : Decoded α) with
    | error e => rw [inner] at decoded; cases decoded
    | ok y => rw [inner] at decoded; cases decoded; exact ⟨null, rfl⟩

end Options

/-! ## Members that are written when they have a value -/

section Present

variable {α : Type} [Payload α]

theorem lookup_present (name : String) (o : Option α) :
    (Json.present name o).lookup name = o.map toJson := by
  cases o with
  | none => rfl
  | some x => exact List.lookup_cons_self

theorem lookup_present_ne {name other : String} (apart : name ≠ other) (o : Option α) :
    (Json.present other o).lookup name = none := by
  cases o with
  | none => rfl
  | some x => rw [Json.present, List.lookup_cons, beq_false_of_ne apart]; rfl

theorem mem_present {name : String} {o : Option α} {entry : String × Json} :
    entry ∈ Json.present name o ↔ ∃ x ∈ o, entry = (name, toJson x) := by
  cases o <;> simp [Json.present]

end Present

/-! ## What was read comes from the record -/

/-- The items or the values of the members of a value. -/
def Json.parts : Json → List Json
  | arr items => items
  | obj members => members.map (·.2)
  | _ => []

/-- A member of a record: by its name in an object, or by its place in an array. -/
def Json.member? (name : String) (place : Nat) : Json → Option Json
  | .obj members => members.lookup name
  | .arr items => items[place]?
  | _ => none

/-- The values that are left to read. -/
def Members.parts : Members → List Json
  | named members => members.map (·.2)
  | listed items => items

theorem Json.Throughout.part {p : Json → Prop} {v w : Json} (all : v.Throughout p)
    (mem : w ∈ v.parts) : w.Throughout p := by
  cases v with
  | arr items => exact (throughout_arr.mp all).2 w mem
  | obj members =>
    obtain ⟨entry, isMember, rfl⟩ := List.mem_map.mp mem
    exact (throughout_obj.mp all).2 entry isMember
  | _ => cases mem

theorem Json.depth_part {depth : Nat} {v w : Json} (shallow : v.depth ≤ depth + 1)
    (mem : w ∈ v.parts) : w.depth ≤ depth := by
  cases v with
  | arr items => exact depth_arr_le.mp shallow w mem
  | obj members =>
    obtain ⟨entry, isMember, rfl⟩ := List.mem_map.mp mem
    exact depth_obj_le.mp shallow entry isMember
  | _ => cases mem

namespace RecordReader

variable {α : Type} {s s' : Members} {v : Json} {name : String} {place : Nat}

theorem take?_parts {o : Option Json} (taken : (take? name).run s = .ok (o, s')) :
    (∀ v ∈ o, v ∈ s.parts) ∧ s'.parts ⊆ s.parts := by
  cases s with
  | named members =>
    cases taken
    exact ⟨fun v found => List.mem_map.mpr ⟨(name, v), Json.mem_of_lookup found, rfl⟩,
      List.Subset.refl _⟩
  | listed items =>
    cases items with
    | nil => cases taken; exact ⟨fun v none => (by cases none), List.Subset.refl _⟩
    | cons v items =>
      cases taken
      exact ⟨fun w found => Option.some.inj found ▸ List.mem_cons_self, List.subset_cons_self _ _⟩

/-- What a decoder gives within a record. -/
theorem run_lift {decoded : Decoded α} {x : α}
    (run : (monadLift decoded : RecordReader α).run s = .ok (x, s')) :
    decoded = .ok x ∧ s' = s := by
  cases decoded with
  | error e => cases run
  | ok y => cases run; exact ⟨rfl, rfl⟩

/-- What is left of a record when its first members have been read. -/
inductive Left (place : Nat) : Json → Members → Prop where
  | named (members : List (String × Json)) : Left place (.obj members) (.named members)
  | listed (items : List Json) : Left place (.arr items) (.listed (items.drop place))

theorem Left.take? {o : Option Json} (left : Left place v s) (taken : (take? name).run s = .ok (o, s')) :
    o = v.member? name place ∧ Left (place + 1) v s' := by
  cases left with
  | named members => cases taken; exact ⟨rfl, .named members⟩
  | listed items =>
    cases rest : items.drop place with
    | nil =>
      rw [rest] at taken
      cases taken
      have short : items.length ≤ place := List.drop_eq_nil_iff.mp rest
      have after : [] = items.drop (place + 1) := (List.drop_eq_nil_iff.mpr (by omega)).symm
      exact ⟨(List.getElem?_eq_none short).symm, after ▸ .listed items⟩
    | cons w rest' =>
      rw [rest] at taken
      cases taken
      have after : rest' = items.drop (place + 1) := by rw [← List.tail_drop, rest, List.tail_cons]
      have here : items[place]? = some w := by rw [← List.head?_drop, rest, List.head?_cons]
      exact ⟨here.symm, after ▸ .listed items⟩

/-- A record that was read from a value was read from the first of its members on. -/
theorem exists_left {reader : RecordReader α} {x : α} (read : Json.readRecord reader name v = .ok x) :
    ∃ s s', Left 0 v s ∧ reader.run s = .ok (x, s') := by
  unfold Json.readRecord at read
  split at read
  case h_1 members =>
    cases run : reader.run (.named members) with
    | error e => rw [run] at read; cases read
    | ok result =>
      rw [run] at read
      cases read
      exact ⟨.named members, result.2, .named members, run⟩
  case h_2 items =>
    split at read
    case h_1 y run => cases read; exact ⟨.listed items, .listed [], .listed items, run⟩
    case h_2 => cases read
    case h_3 => cases read
  case h_3 => cases read

theorem Left.parts (left : Left 0 v s) : s.parts = v.parts := by
  cases left <;> rfl

/-- A record that was read from a value was read from its items or members. -/
theorem exists_of_readRecord {reader : RecordReader α} {x : α}
    (read : Json.readRecord reader name v = .ok x) :
    ∃ s s', s.parts = v.parts ∧ reader.run s = .ok (x, s') := by
  obtain ⟨s, s', left, run⟩ := exists_left read
  exact ⟨s, s', left.parts, run⟩

variable [Payload α]

theorem field_parts {x : α} (run : (field name : RecordReader α).run s = .ok (x, s')) :
    (∃ v ∈ s.parts, ofJson v = .ok x) ∧ s'.parts ⊆ s.parts := by
  obtain ⟨found, s₁, taken, rest⟩ := exists_of_run_bind run
  obtain ⟨mem, subset⟩ := take?_parts taken
  cases found with
  | none => cases rest
  | some v =>
    obtain ⟨decoded, rfl⟩ := run_lift rest
    exact ⟨⟨v, mem v rfl, decoded⟩, subset⟩

theorem optional_parts {o : Option α}
    (run : (optional name : RecordReader (Option α)).run s = .ok (o, s')) :
    (∀ x ∈ o, ∃ v ∈ s.parts, v ≠ .null ∧ ofJson v = .ok x) ∧ s'.parts ⊆ s.parts := by
  obtain ⟨found, s₁, taken, rest⟩ := exists_of_run_bind run
  obtain ⟨mem, subset⟩ := take?_parts taken
  cases found with
  | none =>
    -- an absent member is none by name and an error by place
    cases s₁ with
    | named members => cases rest; exact ⟨fun x none => (by cases none), subset⟩
    | listed items => cases rest
  | some v =>
    obtain ⟨decoded, rfl⟩ := run_lift rest
    exact ⟨fun x same => ⟨v, mem v rfl, some_of_decode (same ▸ decoded)⟩, subset⟩

theorem defaulted_parts {value x : α}
    (run : (defaulted name value : RecordReader α).run s = .ok (x, s')) :
    ((∃ v ∈ s.parts, ofJson v = .ok x) ∨ x = value) ∧ s'.parts ⊆ s.parts := by
  obtain ⟨found, s₁, taken, rest⟩ := exists_of_run_bind run
  obtain ⟨mem, subset⟩ := take?_parts taken
  cases found with
  | none => cases rest; exact ⟨.inr rfl, subset⟩
  | some v =>
    obtain ⟨decoded, rfl⟩ := run_lift rest
    exact ⟨.inl ⟨v, mem v rfl, decoded⟩, subset⟩

theorem Left.field {x : α} (left : Left place v s)
    (run : (field name : RecordReader α).run s = .ok (x, s')) :
    (∃ w, v.member? name place = some w ∧ ofJson w = .ok x) ∧ Left (place + 1) v s' := by
  obtain ⟨found, s₁, taken, rest⟩ := exists_of_run_bind run
  obtain ⟨rfl, after⟩ := left.take? taken
  cases found : v.member? name place with
  | none => rw [found] at rest; cases rest
  | some w =>
    rw [found] at rest
    obtain ⟨decoded, rfl⟩ := run_lift rest
    exact ⟨⟨w, rfl, decoded⟩, after⟩

theorem Left.defaulted {value x : α} (left : Left place v s)
    (run : (defaulted name value : RecordReader α).run s = .ok (x, s')) : Left (place + 1) v s' := by
  obtain ⟨found, s₁, taken, rest⟩ := exists_of_run_bind run
  obtain ⟨-, after⟩ := left.take? taken
  cases found with
  | none => cases rest; exact after
  | some w =>
    obtain ⟨-, rfl⟩ := run_lift rest
    exact after

end RecordReader

end LanguageClient
