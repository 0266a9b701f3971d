import LanguageClient.Proofs.Json.Structure
/-!
# What is read from JSON text

Whatever the text, the value that is read from it is one that the client can hold, and it is not
nested deeper than the reader was allowed to go (`heldWithin_of_parse`).  The reader of values, that
of items and that of members call each other, so what they preserve is said of all three at once,
by induction on the fuel.
-/

namespace LanguageClient.Json

/-- A value that the client can hold, nested within a depth. -/
def HeldWithin (depth : Nat) (v : Json) : Prop :=
  v.Held ∧ v.depth ≤ depth

theorem heldWithin_arr {depth : Nat} {items : List Json}
    (each : ∀ v ∈ items, HeldWithin depth v) : HeldWithin (depth + 1) (arr items) :=
  ⟨throughout_arr.mpr ⟨trivial, fun v mem => (each v mem).1⟩,
    depth_arr_le.mpr fun v mem => (each v mem).2⟩

theorem heldWithin_object {depth : Nat} {members : List (String × Json)}
    (each : ∀ entry ∈ members, HeldWithin depth entry.2) :
    HeldWithin (depth + 1) (object members) :=
  ⟨held_object fun entry mem => (each entry mem).1,
    depth_obj_le.mpr fun entry mem => (each entry (mem_of_mem_sortMembers mem)).2⟩

theorem heldWithin_of_readNumber {negative : Bool} {cs rest : List Char} {v : Json} (depth : Nat)
    (read : readNumber negative cs = some (v, rest)) : HeldWithin depth v := by
  rcases float_or_fits64_of_readNumber read with ⟨x, rfl⟩ | ⟨n, rfl, fits⟩
  · exact ⟨throughout_float.mpr trivial, Nat.zero_le _⟩
  · exact ⟨throughout_int.mpr fits, Nat.zero_le _⟩

/-- What the three readers of values give with some fuel. -/
structure ReadersHold (fuel : Nat) : Prop where
  value : ∀ {depth cs v rest}, readValue fuel depth cs = some (v, rest) → HeldWithin depth v
  items : ∀ {depth read cs v rest}, (∀ w ∈ read, HeldWithin depth w) →
    readItems fuel depth read cs = some (v, rest) → HeldWithin (depth + 1) v
  members : ∀ {depth read cs v rest}, (∀ entry ∈ read, HeldWithin depth entry.2) →
    readMembers fuel depth read cs = some (v, rest) → HeldWithin (depth + 1) v

theorem value_succ {fuel depth : Nat} (hold : ReadersHold fuel) {cs rest : List Char} {v : Json}
    (read : readValue (fuel + 1) depth cs = some (v, rest)) : HeldWithin depth v := by
  rw [readValue] at read
  split at read
  case h_1 => cases read; exact ⟨throughout_null.mpr trivial, Nat.zero_le _⟩
  case h_2 => cases read; exact ⟨throughout_bool.mpr trivial, Nat.zero_le _⟩
  case h_3 => cases read; exact ⟨throughout_bool.mpr trivial, Nat.zero_le _⟩
  case h_4 =>
    obtain ⟨⟨s, tail⟩, -, same⟩ := Option.map_eq_some_iff.mp read
    cases same
    exact ⟨throughout_str.mpr trivial, Nat.zero_le _⟩
  case h_5 => exact heldWithin_of_readNumber depth read
  case h_6 =>
    split at read
    case h_1 => cases read
    case h_2 depth =>
      split at read
      case h_1 => cases read; exact heldWithin_arr (by simp)
      case h_2 => exact hold.items (by simp) read
  case h_7 =>
    split at read
    case h_1 => cases read
    case h_2 depth =>
      split at read
      case h_1 =>
        cases read
        have empty : ∀ entry ∈ ([] : List (String × Json)), HeldWithin depth entry.2 := by simp
        exact heldWithin_object empty
      case h_2 => exact hold.members (by simp) read
  case h_8 => exact heldWithin_of_readNumber depth read

theorem items_succ {fuel depth : Nat} (hold : ReadersHold fuel) {read : List Json}
    {cs rest : List Char} {v : Json} (before : ∀ w ∈ read, HeldWithin depth w)
    (result : readItems (fuel + 1) depth read cs = some (v, rest)) : HeldWithin (depth + 1) v := by
  rw [readItems] at result
  split at result
  case h_1 => cases result
  case h_2 w tail value =>
    have all : ∀ x ∈ w :: read, HeldWithin depth x :=
      List.forall_mem_cons.mpr ⟨hold.value value, before⟩
    split at result
    case h_1 => exact hold.items all result
    case h_2 =>
      cases result
      exact heldWithin_arr fun x mem => all x (List.mem_reverse.mp mem)
    case h_3 => cases result

theorem members_succ {fuel depth : Nat} (hold : ReadersHold fuel) {read : List (String × Json)}
    {cs rest : List Char} {v : Json} (before : ∀ entry ∈ read, HeldWithin depth entry.2)
    (result : readMembers (fuel + 1) depth read cs = some (v, rest)) :
    HeldWithin (depth + 1) v := by
  rw [readMembers] at result
  split at result
  case h_2 => cases result
  case h_1 text =>
    split at result
    case h_1 => cases result
    case h_2 key tail name =>
      split at result
      case h_2 => cases result
      case h_1 tail =>
        split at result
        case h_1 => cases result
        case h_2 w tail value =>
          have all : ∀ entry ∈ (key, w) :: read, HeldWithin depth entry.2 :=
            List.forall_mem_cons.mpr ⟨hold.value value, before⟩
          split at result
          case h_1 => exact hold.members all result
          case h_2 =>
            cases result
            exact heldWithin_object fun entry mem => all entry (List.mem_reverse.mp mem)
          case h_3 => cases result

/-- What the readers give can be held, and is not nested deeper than they were allowed to go. -/
theorem readersHold (fuel : Nat) : ReadersHold fuel := by
  induction fuel with
  | zero =>
    exact {
      value := fun read => by simp [readValue] at read
      items := fun _ read => by simp [readItems] at read
      members := fun _ read => by simp [readMembers] at read }
  | succ fuel ih =>
    exact { value := value_succ ih, items := items_succ ih, members := members_succ ih }

/-- **A value that was read can be held**, and is nested no deeper than the reader goes. -/
theorem heldWithin_of_parse {s : String} {v : Json} (read : parse? s = some v) :
    HeldWithin maxDepth v := by
  unfold parse? parseChars? at read
  split at read
  case h_1 w rest value =>
    split_ifs at read
    cases read
    exact (readersHold _).value value
  case h_2 => cases read

end LanguageClient.Json
