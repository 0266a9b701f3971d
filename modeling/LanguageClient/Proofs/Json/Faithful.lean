import LanguageClient.Proofs.Json.Record
/-!
# What is read is written, and read again

A type is `Faithful` when a value of it that was read is written in a form that is read as the same
value.  Reading may forget: members that no place is for, the difference between an object and an
array, or between an absent member and `null`.  Being faithful says that it forgets once, and that
nothing is lost between what was read and what is written.

A record is described by its places.  A `Slot` is the name of a place and what is written there,
and `Rereads` says of a reader that whatever it gave, it gives again for members that have what the
places of the result say.  That is shown reader after reader, in the order of the record
(`Rereads.bind`), with the places that were read so far kept; at the end they are the places of the
result.
-/

namespace LanguageClient

/-! ## Integers -/

theorem integerBetween_int {low high n : Int} (name : String) (inside : low ≤ n ∧ n ≤ high) :
    integerBetween low high name (.int n) = .ok n := by
  rw [integerBetween, if_pos inside]

/-- An unsigned integer is read back by a reader whose bound it meets. -/
theorem read_unsigned {α : Type} {number : α → Nat} {of : Nat → α} {high : Int} (name : String)
    (back : ∀ n, of (number n) = n) {n : α} (small : number n ≤ high) :
    (integerBetween 0 high name (.int (number n))).map (fun i => of i.toNat) = .ok n := by
  rw [integerBetween_int name ⟨by omega, small⟩]
  show Except.ok (of (number n : Int).toNat) = _
  rw [Int.toNat_natCast, back]

theorem decode_byte (n : UInt8) : (ofJson (toJson n) : Decoded UInt8) = .ok n :=
  read_unsigned _ (fun _ => UInt8.ofNat_toNat) (by have := n.toNat_lt; omega)

theorem decode_half (n : UInt32) : (ofJson (toJson n) : Decoded UInt32) = .ok n :=
  read_unsigned _ (fun _ => UInt32.ofNat_toNat) (by have := n.toNat_lt; omega)

theorem decode_word (n : UInt64) : (ofJson (toJson n) : Decoded UInt64) = .ok n :=
  read_unsigned _ (fun _ => UInt64.ofNat_toNat) (by have := n.toNat_lt; omega)

theorem decode_code (n : Int32) : (ofJson (toJson n) : Decoded Int32) = .ok n := by
  have inside : -2147483648 ≤ n.toInt ∧ n.toInt ≤ 2147483647 :=
    ⟨n.le_toInt, Int.le_of_lt_add_one n.toInt_lt⟩
  show (integerBetween _ _ _ (.int n.toInt)).map _ = _
  rw [integerBetween_int _ inside]
  show Except.ok (Int32.ofInt n.toInt) = _
  rw [Int32.ofInt_toInt]

/-! ## Faithful types -/

/-- What is read is written in a form that is read as the same value. -/
structure FaithfulForm {α : Type} (read : Json → Decoded α) (write : α → Json) : Prop where
  reads_back {v : Json} {x : α} : v.Held → read v = .ok x → read (write x) = .ok x
  /-- Only `null` is written as `null`, which would be taken for an absent member. -/
  not_null {v : Json} {x : α} : v ≠ .null → read v = .ok x → write x ≠ .null
  held {v : Json} {x : α} : v.Held → read v = .ok x → (write x).Held

/-- A type with a faithful JSON form. -/
class Faithful (α : Type) [Payload α] : Prop extends
  FaithfulForm (ofJson : Json → Decoded α) toJson

namespace Faithful

section Simple

variable {α : Type} [Payload α]

/-- A type all of whose values are read back, read or not. -/
theorem ofAll (back : ∀ x : α, ofJson (toJson x) = .ok x)
    (plain : ∀ x : α, toJson x ≠ .null ∧ (toJson x).Held) : Faithful α where
  reads_back _ _ := back _
  not_null _ _ := (plain _).1
  held _ _ := (plain _).2

instance : Faithful Json where
  reads_back _ _ := rfl
  not_null present read := by cases read; exact present
  held held read := by cases read; exact held

instance : Faithful String :=
  ofAll (fun _ => rfl) fun _ => ⟨Json.noConfusion, Json.throughout_str.mpr trivial⟩

instance : Faithful Bool :=
  ofAll (fun _ => rfl) fun _ => ⟨Json.noConfusion, Json.throughout_bool.mpr trivial⟩

/-- A type that is written as an integer of 64 bits. -/
theorem ofNumber {number : α → Int} (write : ∀ x : α, toJson x = .int (number x))
    (fits : ∀ x, Json.Fits64 (number x)) (back : ∀ x : α, ofJson (toJson x) = .ok x) :
    Faithful α :=
  ofAll back fun x => by
    rw [write]
    exact ⟨Json.noConfusion, Json.throughout_int.mpr (fits x)⟩

end Simple

instance : Faithful UInt8 :=
  ofNumber (fun _ => rfl) (fun n => by have := n.toNat_lt; constructor <;> omega) decode_byte

instance : Faithful UInt32 :=
  ofNumber (fun _ => rfl) (fun n => by have := n.toNat_lt; constructor <;> omega) decode_half

instance : Faithful UInt64 :=
  ofNumber (fun _ => rfl) (fun n => by have := n.toNat_lt; constructor <;> omega) decode_word

theorem code_fits (n : Int32) : Json.Fits64 n.toInt :=
  ⟨Int.le_trans (by decide) n.le_toInt, Int.le_trans (Int.le_of_lt n.toInt_lt) (by decide)⟩

instance : Faithful Int32 :=
  ofNumber (fun _ => rfl) code_fits decode_code

/-! ### Lists and options -/

section Containers

variable {α : Type} [Payload α]

theorem exists_of_mapM {v : Json} {items : List Json} {xs : List α}
    (read : (v :: items).mapM ofJson = (.ok xs : Decoded (List α))) :
    ∃ y ys, xs = y :: ys ∧ ofJson v = .ok y ∧ items.mapM ofJson = (.ok ys : Decoded (List α)) := by
  rw [List.mapM_cons] at read
  cases first : (ofJson v : Decoded α) with
  | error e => rw [first] at read; cases read
  | ok y =>
    cases rest : (items.mapM ofJson : Decoded (List α)) with
    | error e => rw [first, rest] at read; cases read
    | ok ys => rw [first, rest] at read; cases read; exact ⟨y, ys, rfl, rfl, rfl⟩

theorem exists_of_list {v : Json} {xs : List α} (read : ofJson v = .ok xs) :
    ∃ items, v = .arr items ∧ items.mapM ofJson = (.ok xs : Decoded (List α)) := by
  cases v with
  | arr items => exact ⟨items, rfl, read⟩
  | _ => cases read

variable [Faithful α]

theorem items_read_back {items : List Json} {xs : List α} (held : ∀ v ∈ items, v.Held)
    (read : items.mapM ofJson = (.ok xs : Decoded (List α))) :
    (xs.map toJson).mapM ofJson = (.ok xs : Decoded (List α))
      ∧ ∀ v ∈ xs.map toJson, v.Held := by
  induction items generalizing xs with
  | nil => cases read; exact ⟨rfl, by simp⟩
  | cons v items ih =>
    rw [List.forall_mem_cons] at held
    obtain ⟨y, ys, rfl, first, rest⟩ := exists_of_mapM read
    obtain ⟨back, written⟩ := ih held.2 rest
    refine ⟨?_, List.forall_mem_cons.mpr ⟨toFaithfulForm.held held.1 first, written⟩⟩
    rw [List.map_cons, List.mapM_cons, toFaithfulForm.reads_back held.1 first, back]
    rfl

instance : Faithful (List α) where
  reads_back held read := by
    obtain ⟨items, rfl, read⟩ := exists_of_list read
    exact (items_read_back (Json.throughout_arr.mp held).2 read).1
  not_null _ _ := Json.noConfusion
  held held read := by
    obtain ⟨items, rfl, read⟩ := exists_of_list read
    exact Json.throughout_arr.mpr
      ⟨trivial, (items_read_back (Json.throughout_arr.mp held).2 read).2⟩

/-- A value that was read where there may be none is read back as a value. -/
theorem some_reads_back {v : Json} {x : α} (held : v.Held) (present : v ≠ .null)
    (read : ofJson v = .ok x) : (ofJson (toJson x) : Decoded (Option α)) = .ok (some x) := by
  rw [decode_some (toFaithfulForm.not_null present read), toFaithfulForm.reads_back held read]
  rfl

instance : Faithful (Option α) where
  reads_back {v o} held read := by
    cases o with
    | none => rfl
    | some x =>
      obtain ⟨present, read⟩ := some_of_decode read
      exact some_reads_back held present read
  not_null {v o} present read := by
    rw [decode_some present] at read
    cases inner : (ofJson v : Decoded α) with
    | error e => rw [inner] at read; cases read
    | ok x =>
      rw [inner] at read
      cases read
      show toJson x ≠ .null
      exact toFaithfulForm.not_null present inner
  held {v o} held read := by
    cases o with
    | none => exact Json.throughout_null.mpr trivial
    | some x =>
      show (toJson x).Held
      exact toFaithfulForm.held held (some_of_decode read).2

end Containers

end Faithful

/-! ## The places of a record -/

/-- A place of a record, and what is written there; nothing when the member is left out. -/
structure Slot where
  name : String
  value : Option Json

namespace Slot

variable {α : Type} [Payload α]

/-- A place that is always written. -/
def always (name : String) (x : α) : Slot :=
  ⟨name, some (toJson x)⟩

/-- A place that is written when it has a value. -/
def present (name : String) (o : Option α) : Slot :=
  ⟨name, o.map toJson⟩

/-- The value in a place can be held. -/
def Held (slot : Slot) : Prop :=
  ∀ v ∈ slot.value, v.Held

/-- What is written for a place. -/
def member? (slot : Slot) : Option (String × Json) :=
  slot.value.map (slot.name, ·)

end Slot

/-- The members that are written for some places. -/
def written (slots : List Slot) : List (String × Json) :=
  slots.filterMap Slot.member?

section Written

variable {α : Type} [Payload α] {slots more : List Slot} {members : List (String × Json)}

@[simp] theorem written_nil : written [] = [] := rfl

@[simp] theorem written_always (name : String) (x : α) :
    written (.always name x :: slots) = (name, toJson x) :: written slots := rfl

@[simp] theorem written_present (name : String) (o : Option α) :
    written (.present name o :: slots) = Json.present name o ++ written slots := by
  cases o <;> rfl

@[simp] theorem written_append : written (slots ++ more) = written slots ++ written more :=
  List.filterMap_append

@[simp] theorem name_always (name : String) (x : α) : (Slot.always name x).name = name := rfl

@[simp] theorem name_present (name : String) (o : Option α) :
    (Slot.present name o).name = name := rfl

/-- No two places have the same name. -/
def DistinctSlots (slots : List Slot) : Prop :=
  (slots.map Slot.name).Nodup

@[simp] theorem distinctSlots_iff : DistinctSlots slots ↔ (slots.map Slot.name).Nodup :=
  Iff.rfl

theorem names_written_sublist : ((written slots).map (·.1)).Sublist (slots.map Slot.name) := by
  induction slots with
  | nil => exact List.Sublist.slnil
  | cons slot slots ih =>
    obtain ⟨name, value⟩ := slot
    cases value with
    | none => exact ih.cons _
    | some v => exact ih.cons_cons _

theorem DistinctSlots.distinctNames (distinct : DistinctSlots slots) :
    Json.DistinctNames (written slots) :=
  List.Nodup.sublist names_written_sublist distinct

/-- The members have in every place what it says. -/
def Fills (members : List (String × Json)) (slots : List Slot) : Prop :=
  ∀ slot ∈ slots, members.lookup slot.name = slot.value

theorem Fills.mono (fills : Fills members slots) (within : more ⊆ slots) : Fills members more :=
  fun slot mem => fills slot (within mem)

theorem lookup_written_eq_none {name : String} (new : name ∉ slots.map Slot.name) :
    (written slots).lookup name = none :=
  List.lookup_eq_none_iff.mpr fun _ mem => bne_iff_ne.mpr fun same =>
    new (names_written_sublist.subset (List.mem_map.mpr ⟨_, mem, same.symm⟩))

/-- What is written for places with distinct names has in every place what it says. -/
theorem fills_written (distinct : DistinctSlots slots) : Fills (written slots) slots := by
  induction slots with
  | nil => exact fun _ mem => (by cases mem)
  | cons head slots ih =>
    obtain ⟨new, rest⟩ := List.nodup_cons.mp distinct
    obtain ⟨name, value⟩ := head
    refine List.forall_mem_cons.mpr ⟨?_, fun slot later => ?_⟩
    · cases value with
      | none =>
        show (written slots).lookup name = none
        exact lookup_written_eq_none new
      | some v => exact List.lookup_cons_self
    · have apart : slot.name ≠ name := fun same =>
        new (List.mem_map.mpr ⟨slot, later, same⟩)
      cases value with
      | none => exact ih rest slot later
      | some v =>
        show List.lookup slot.name ((name, v) :: written slots) = _
        rw [List.lookup_cons, beq_false_of_ne apart]
        exact ih rest slot later

theorem Fills.sortMembers (fills : Fills members slots) (distinct : Json.DistinctNames members) :
    Fills (Json.sortMembers members) slots :=
  fun slot mem => (Json.lookup_sortMembers distinct slot.name).trans (fills slot mem)

end Written

/-! ## Readers that read again what they read -/

/-- The values that are left to read can be held. -/
def Members.Held (s : Members) : Prop :=
  ∀ v ∈ s.parts, v.Held

theorem Members.Held.mono {s s' : Members} (held : s.Held) (within : s'.parts ⊆ s.parts) :
    s'.Held :=
  fun v mem => held v (within mem)

namespace RecordReader

variable {α β : Type} {s s' : Members} {name : String}

/-- What a reader gave has these places, and the reader gives it again for members that fill
    them. -/
structure Settles (reader : RecordReader α) (x : α) (slots : List Slot) (s' : Members) : Prop where
  held : ∀ slot ∈ slots, slot.Held
  rest : s'.Held
  again {members : List (String × Json)} (fills : Fills members slots) :
    reader.run (.named members) = .ok (x, .named members)

theorem Settles.held_written {reader : RecordReader α} {x : α} {slots : List Slot}
    (settles : reader.Settles x slots s') {entry : String × Json} (mem : entry ∈ written slots) :
    entry.2.Held := by
  obtain ⟨slot, inSlots, same⟩ := List.mem_filterMap.mp mem
  obtain ⟨v, value, rfl⟩ := Option.map_eq_some_iff.mp same
  exact settles.held slot inSlots v value

/-- Whatever the reader gives, it gives again for members that fill the places of the result.
    Among these are the places that were read before. -/
def Rereads (before : List Slot) (reader : RecordReader α) (slots : α → List Slot) : Prop :=
  ∀ s s' x, s.Held → (∀ slot ∈ before, slot.Held) → reader.run s = .ok (x, s') →
    before ⊆ slots x ∧ reader.Settles x (slots x) s'

namespace Rereads

variable {before : List Slot} {first : RecordReader α} {next : α → RecordReader β}
  {slots : α → List Slot} {slots' : β → List Slot}

/-- At the end of a record all its places have been read. -/
theorem pure {x : β} (all : before = slots' x) :
    Rereads before (Pure.pure x : RecordReader β) slots' := by
  intro s s' y rest held run
  cases run
  exact ⟨all ▸ List.Subset.refl _, all ▸ held, rest, fun _ => rfl⟩

theorem bind (one : Rereads [] first slots)
    (more : ∀ x, Rereads (before ++ slots x) (next x) slots') :
    Rereads before (first >>= next) slots' := by
  intro s s' y rest held run
  obtain ⟨x, s₁, run₁, run₂⟩ := exists_of_run_bind run
  have got := (one s s₁ x rest (by simp) run₁).2
  obtain ⟨within, all⟩ := more x s₁ s' y got.rest (List.forall_mem_append.mpr ⟨held, got.held⟩) run₂
  refine ⟨List.Subset.trans (List.subset_append_left _ _) within, all.held, all.rest, fun fills => ?_⟩
  rw [run_bind (got.again (fills.mono (List.Subset.trans (List.subset_append_right _ _) within)))]
  exact all.again fills

end Rereads

/-! ### One member -/

section Member

variable [Payload α] [Faithful α]

/-- What was read for a place from a value is read for it again. -/
theorem settles_of_value {reader : RecordReader α} {v : Json} {x : α} (rest : s'.Held)
    (held : v.Held) (read : ofJson v = .ok x)
    (again : ∀ {members}, members.lookup name = some (toJson x) → ofJson (toJson x) = .ok x →
      reader.run (.named members) = .ok (x, .named members)) :
    reader.Settles x [.always name x] s' where
  held := List.forall_mem_singleton.mpr fun w value => by
    cases value
    exact Faithful.toFaithfulForm.held held read
  rest := rest
  again fills := again (fills _ List.mem_cons_self) (Faithful.toFaithfulForm.reads_back held read)

/-- The same of a place that may have been left out, or have had `null`. -/
theorem settles_of_option {reader : RecordReader (Option α)} {o : Option α} (rest : s'.Held)
    (values : ∀ x ∈ o, ∃ v : Json, v.Held ∧ v ≠ .null ∧ ofJson v = .ok x)
    (absent : ∀ {members}, members.lookup name = none →
      reader.run (.named members) = .ok (none, .named members))
    (named : ∀ {members v} {o : Option α}, members.lookup name = some v → ofJson v = .ok o →
      reader.run (.named members) = .ok (o, .named members)) :
    reader.Settles o [.present name o] s' := by
  cases o with
  | none =>
    exact ⟨List.forall_mem_singleton.mpr fun w value => (by cases value), rest,
      fun fills => absent (fills _ List.mem_cons_self)⟩
  | some x =>
    obtain ⟨v, held, present, read⟩ := values x rfl
    have read : (ofJson v : Decoded (Option α)) = .ok (some x) := by
      rw [decode_some present, read]
      rfl
    exact settles_of_value rest held read named

namespace Rereads

theorem field : Rereads [] (field name : RecordReader α) fun x => [.always name x] := by
  intro s s' x rest _ run
  obtain ⟨⟨v, mem, read⟩, subset⟩ := field_parts run
  exact ⟨List.nil_subset _,
    settles_of_value (rest.mono subset) (rest v mem) read field_named⟩

/-- A member that is written when it has a value. -/
theorem optional : Rereads [] (optional name : RecordReader (Option α))
    fun o => [.present name o] := by
  intro s s' o rest _ run
  obtain ⟨values, subset⟩ := optional_parts run
  refine ⟨List.nil_subset _, settles_of_option (rest.mono subset) (fun x isSome => ?_)
    optional_absent optional_named⟩
  obtain ⟨v, mem, present, read⟩ := values x isSome
  exact ⟨v, rest v mem, present, read⟩

/-- A member that is written as `null` when it has no value. -/
theorem nullable : Rereads [] (RecordReader.optional name : RecordReader (Option α))
    fun o => [.always name o] := by
  intro s s' o rest _ run
  obtain ⟨values, subset⟩ := optional_parts run
  have source : ∃ v : Json, v.Held ∧ (ofJson v : Decoded (Option α)) = .ok o := by
    cases o with
    | none => exact ⟨.null, Json.throughout_null.mpr trivial, rfl⟩
    | some x =>
      obtain ⟨v, mem, present, read⟩ := values x rfl
      exact ⟨v, rest v mem, by rw [decode_some present, read]; rfl⟩
  obtain ⟨v, held, read⟩ := source
  exact ⟨List.nil_subset _, settles_of_value (rest.mono subset) held read optional_named⟩

/-- A member that is always written, and has a value of its own when it is absent; that value is
    read from `own`. -/
theorem defaulted {value : α} (own : Json) (held : own.Held) (read : ofJson own = .ok value) :
    Rereads [] (RecordReader.defaulted name value) fun x => [.always name x] := by
  intro s s' x rest _ run
  obtain ⟨source, subset⟩ := defaulted_parts run
  have source : ∃ v : Json, v.Held ∧ ofJson v = .ok x := by
    rcases source with ⟨v, mem, read⟩ | rfl
    · exact ⟨v, rest v mem, read⟩
    · exact ⟨own, held, read⟩
  obtain ⟨v, held, read⟩ := source
  exact ⟨List.nil_subset _, settles_of_value (rest.mono subset) held read defaulted_named⟩

/-- A member that is written when it has a value, and has none when it is absent. -/
theorem defaulted_none : Rereads []
    (RecordReader.defaulted name none : RecordReader (Option α)) fun o => [.present name o] := by
  intro s s' o rest _ run
  obtain ⟨source, subset⟩ := defaulted_parts run
  refine ⟨List.nil_subset _, settles_of_option (rest.mono subset) (fun x isSome => ?_)
    defaulted_absent defaulted_named⟩
  cases isSome
  rcases source with ⟨v, mem, read⟩ | none
  · exact ⟨v, rest v mem, some_of_decode read⟩
  · cases none

end Rereads

end Member

end RecordReader

/-! ## Faithful records -/

/-- Values of a type are read as records: from an object by its members, and whatever was read was
    read from the parts of the value. -/
structure ReadAsRecord {α : Type} (read : Json → Decoded α) (reader : RecordReader α) : Prop where
  exists_run {v : Json} {x : α} : read v = .ok x →
    ∃ s s', s.parts = v.parts ∧ reader.run s = .ok (x, s')
  object (members : List (String × Json)) :
    read (.object members) = (reader.run (.named (Json.sortMembers members))).map (·.1)

section Records

variable {α : Type} {reader : RecordReader α} {name : String}

theorem readAsRecord : ReadAsRecord (Json.readRecord reader name) reader where
  exists_run := RecordReader.exists_of_readRecord
  object := RecordReader.readRecord_object reader name

theorem readAsOpenRecord : ReadAsRecord (Json.readOpenRecord reader name) reader where
  exists_run {v x} read := by
    cases v with
    | obj members =>
      have asRecord : Json.readRecord reader name (.obj members) = .ok x := read
      exact RecordReader.exists_of_readRecord asRecord
    | _ => cases read
  object _ := rfl

/-- A form is faithful when values are written for the places that the reader reads. -/
theorem FaithfulForm.ofRecord {read : Json → Decoded α} {write : α → Json}
    (slots : α → List Slot) (form : ReadAsRecord read reader)
    (writes : ∀ x : α, write x = .object (written (slots x)))
    (distinct : ∀ x, DistinctSlots (slots x)) (rereads : reader.Rereads [] slots) :
    FaithfulForm read write := by
  have settled {v x} (held : v.Held) (was : read v = .ok x) :
      ∃ s', reader.Settles x (slots x) s' := by
    obtain ⟨s, s', parts, run⟩ := form.exists_run was
    have rest : s.Held := fun w mem => Json.Throughout.part held (parts ▸ mem)
    exact ⟨s', (rereads s s' x rest (by simp) run).2⟩
  refine ⟨fun {v x} held was => ?_, fun {v x} _ _ => ?_, fun {v x} held was => ?_⟩
  · obtain ⟨s', settles⟩ := settled held was
    have fills := (fills_written (distinct x)).sortMembers (distinct x).distinctNames
    rw [writes, form.object, settles.again fills]
    rfl
  · rw [writes]
    exact Json.noConfusion
  · obtain ⟨s', settles⟩ := settled held was
    rw [writes]
    exact Json.held_object fun entry mem => settles.held_written mem

/-- A type of records is faithful when its values are written for the places that its reader
    reads. -/
theorem Faithful.ofRecord [Payload α] (slots : α → List Slot)
    (form : ReadAsRecord (ofJson : Json → Decoded α) reader)
    (writes : ∀ x : α, toJson x = .object (written (slots x)))
    (distinct : ∀ x, DistinctSlots (slots x)) (rereads : reader.Rereads [] slots) :
    Faithful α :=
  ⟨.ofRecord slots form writes distinct rereads⟩

end Records

/-! ## Alternatives -/

/-- A type with two alternatives, of which the first that can be read is taken, is faithful when
    each has a faithful form and what is written for the second cannot be read as the first. -/
theorem Faithful.ofAlternatives {α β γ : Type} [Payload γ] {readFirst : Json → Decoded α}
    {readSecond : Json → Decoded β} {writeFirst : α → Json} {writeSecond : β → Json}
    (type : String) (first : α → γ) (second : β → γ)
    (forms : FaithfulForm readFirst writeFirst ∧ FaithfulForm readSecond writeSecond)
    (reads : ∀ v, ofJson v = match readFirst v, readSecond v with
      | .ok x, _ => .ok (first x)
      | _, .ok y => .ok (second y)
      | _, _ => .error (.noAlternative type))
    (writes : (∀ x, toJson (first x) = writeFirst x) ∧ ∀ y, toJson (second y) = writeSecond y)
    (apart : ∀ y, ∃ e, readFirst (writeSecond y) = .error e) : Faithful γ := by
  obtain ⟨writesFirst, writesSecond⟩ := writes
  obtain ⟨formFirst, formSecond⟩ := forms
  -- a value that was read came of one of the two forms
  have source {v : Json} {z : γ} (read : ofJson v = .ok z) :
      (∃ x, readFirst v = .ok x ∧ z = first x) ∨ ∃ y, readSecond v = .ok y ∧ z = second y := by
    rw [reads] at read
    split at read
    case h_1 x found => cases read; exact .inl ⟨x, found, rfl⟩
    case h_2 y found _ => cases read; exact .inr ⟨y, found, rfl⟩
    case h_3 => cases read
  refine ⟨⟨fun {v z} held read => ?_, fun {v z} present read => ?_, fun {v z} held read => ?_⟩⟩
  · obtain ⟨x, found, rfl⟩ | ⟨y, found, rfl⟩ := source read
    · rw [reads, writesFirst, formFirst.reads_back held found]
    -- what was written for the second is never taken for the first
    · obtain ⟨e, refused⟩ := apart y
      rw [reads, writesSecond, refused, formSecond.reads_back held found]
  · obtain ⟨x, found, rfl⟩ | ⟨y, found, rfl⟩ := source read
    · rw [writesFirst]
      exact formFirst.not_null present found
    · rw [writesSecond]
      exact formSecond.not_null present found
  · obtain ⟨x, found, rfl⟩ | ⟨y, found, rfl⟩ := source read
    · rw [writesFirst]
      exact formFirst.held held found
    · rw [writesSecond]
      exact formSecond.held held found

end LanguageClient
