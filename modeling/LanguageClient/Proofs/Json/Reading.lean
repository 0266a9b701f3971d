import LanguageClient.Proofs.Json.Structure
/-!
# JSON text read back

The text that is written for a value is read as the value again, with the members of its objects in
order (`readValue_write`, `parse_render`).  Two things are asked of the value: that it is not
nested deeper than the reader goes, and that its numbers are read back.  Integers of 64 bits are; a
floating point number need not be.

Reading goes along the value: a string character by character, an array or object item by item.
The fuel of the reader is compared with the length of the text, of which each step takes a part.
-/

namespace LanguageClient.Json

/-! ## Strings -/

theorem hexDigit?_digitChar : ∀ n < 16, Numeral.hexDigit? (Nat.digitChar n) = some n := by
  decide

theorem escapeChar_ne_nil (c : Char) : escapeChar c ≠ [] := by
  unfold escapeChar
  split
  case h_8 => split_ifs <;> exact List.cons_ne_nil _ _
  all_goals exact List.cons_ne_nil _ _

/-- The escape of a character below U+0020 is read as the character. -/
theorem readUnicode_control {c : Char} (control : c.toNat < 0x20) (rest : List Char) :
    readUnicode ('0' :: '0' :: Nat.digitChar (c.toNat / 16) :: Nat.digitChar (c.toNat % 16) :: rest)
      = some (c, rest) := by
  have high := hexDigit?_digitChar (c.toNat / 16) (by omega)
  have low := hexDigit?_digitChar (c.toNat % 16) (by omega)
  have zero : Numeral.hexDigit? '0' = some 0 := rfl
  have value : ((0 * 16 + 0) * 16 + c.toNat / 16) * 16 + c.toNat % 16 = c.toNat := by omega
  have units : ¬(0xD800 ≤ c.toNat ∧ c.toNat < 0xDC00) ∧ ¬(0xDC00 ≤ c.toNat ∧ c.toNat < 0xE000) := by
    omega
  simp only [readUnicode, readHex4, zero, high, low, Option.bind_eq_bind, Option.bind_some, value,
    if_neg units.1, if_neg units.2, Char.ofNat_toNat]

/-- A character of a string is read as it is written. -/
theorem readString_escapeChar (fuel : Nat) (read : List Char) (c : Char) (rest : List Char) :
    readString (fuel + 1) read (escapeChar c ++ rest) = readString fuel (c :: read) rest := by
  unfold escapeChar
  split
  case h_8 noQuote noBackslash _ _ _ _ _ =>
    split_ifs with control
    · simp only [List.cons_append, List.nil_append, readString, readEscape,
        readUnicode_control control, Option.bind_some]
    · simp only [List.cons_append, List.nil_append]
      rw [readString, if_neg control]
      · exact noQuote
      · exact noBackslash
  all_goals rfl

theorem readString_escaped {fuel : Nat} (read : List Char) {cs : List Char}
    (enough : (cs.flatMap escapeChar).length ≤ fuel) (rest : List Char) :
    readString fuel read (cs.flatMap escapeChar ++ '"' :: rest)
      = some (String.ofList (read.reverse ++ cs), rest) := by
  induction cs generalizing fuel read with
  | nil => cases fuel <;> simp [readString]
  | cons c cs ih =>
    rw [List.flatMap_cons, List.length_append] at enough
    have one : 0 < (escapeChar c).length := List.length_pos_iff.mpr (escapeChar_ne_nil c)
    obtain ⟨fuel, rfl⟩ : ∃ n, fuel = n + 1 := ⟨fuel - 1, by omega⟩
    rw [List.flatMap_cons, List.append_assoc, readString_escapeChar, ih (c :: read) (by omega),
      List.reverse_cons, List.append_assoc, List.singleton_append]

/-- A string is read back from its text. -/
theorem readString_quoted (s : String) (rest : List Char) :
    ∃ text, quoted s ++ rest = '"' :: text ∧ readString text.length [] text = some (s, rest) := by
  refine ⟨s.toList.flatMap escapeChar ++ '"' :: rest, by simp [quoted], ?_⟩
  rw [readString_escaped [] (by simp) rest]
  simp

/-! ## How the text of a value begins -/

theorem skipSpace_cons {c : Char} (notSpace : isSpace c = false) (cs : List Char) :
    skipSpace (c :: cs) = c :: cs := by
  rw [skipSpace, List.dropWhile_cons_of_neg (by simp [notSpace])]

theorem readValue_digit {c : Char} (digit : c.isDigit = true) (fuel depth : Nat) (cs : List Char) :
    readValue (fuel + 1) depth (c :: cs) = readNumber false (c :: cs) := by
  have first : ∀ {d : Char} {ds : List Char}, c :: cs = d :: ds → d.isDigit = true :=
    fun same => (List.cons.inj same).1 ▸ digit
  unfold readValue
  rw [skipSpace_cons (InNumber.isSpace (.inl digit))]
  split
  case h_8 => rfl
  all_goals exact absurd (first ‹_›) (by decide)

/-- A number that the reader takes is read as a value. -/
theorem readValue_numberText {text : List Char} {v : Json} (number : NumberText text v)
    (fuel depth : Nat) {rest : List Char} (breaks : Breaks rest) :
    readValue (fuel + 1) depth (text ++ rest) = some (v, rest) := by
  cases number with
  | negative takes => exact takes rest breaks
  | positive digit takes => exact (readValue_digit digit fuel depth _).trans (takes rest breaks)

/-- Whether the text of a floating point number is read as that number. -/
def ReadsBack (x : Binary64) : Prop :=
  parse? x.text = some (float x)

instance (x : Binary64) : Decidable (ReadsBack x) :=
  inferInstanceAs (Decidable (_ = _))

/-- A floating point number that is read back from its text alone is taken from it in front of
    anything. -/
theorem numberText_float {x : Binary64} (readsBack : ReadsBack x) :
    NumberText x.text.toList (float x) := by
  have chars := inNumber_text x
  unfold ReadsBack parse? parseChars? at readsBack
  split at readsBack
  case h_2 => cases readsBack
  case h_1 v rest read =>
    split_ifs at readsBack with atEnd
    cases readsBack
    -- the text is one of a number from end to end, so no rest of it can be left
    have whole : ∀ {taken}, (∀ c ∈ taken ++ rest, InNumber c) → rest = [] := by
      intro taken chars
      cases rest with
      | nil => rfl
      | cons c rest =>
        rw [skipSpace_cons (chars c (by simp)).isSpace] at atEnd
        cases atEnd
    generalize x.text.toList = text at chars read
    cases text with
    | nil => cases read
    | cons c cs =>
      rcases chars c List.mem_cons_self with digit | rfl | rfl | rfl
      · rw [readValue_digit digit] at read
        obtain ⟨taken, same, -⟩ := takes_of_readNumber read
        cases whole (same ▸ chars)
        exact .positive digit (takes_of_readNumber_nil read)
      · change readNumber true cs = _ at read
        obtain ⟨taken, rfl, -⟩ := takes_of_readNumber read
        cases whole (List.forall_mem_cons.mp chars).2
        exact .negative (takes_of_readNumber_nil read)
      · cases read
      · cases read

/-! ## The whole value -/

/-- The integers of a value have 64 bits and its floating point numbers are read back. -/
def NumbersReadBack (v : Json) : Prop :=
  v.Throughout fun
    | int n => Fits64 n
    | float x => ReadsBack x
    | _ => True

/-- A value is read as another one from its text, in front of whatever does not go on a number. -/
def ReadAs (depth : Nat) (v w : Json) : Prop :=
  ∀ (fuel : Nat) (rest : List Char), (write [] v).length ≤ fuel → Breaks rest →
    readValue fuel depth (write rest v) = some (w, rest)

/-! ### What is written does not depend on what follows -/

theorem writeItems_append {items : List Json}
    (each : ∀ v ∈ items, ∀ rest, write rest v = write [] v ++ rest) (rest : List Char) :
    writeItems rest items = writeItems [] items ++ rest := by
  induction items with
  | nil => rfl
  | cons v items ih =>
    rw [List.forall_mem_cons] at each
    rw [writeItems, writeItems, each.1, each.1 (writeItems [] items), ih each.2, List.cons_append,
      List.append_assoc]

theorem writeMembers_append {members : List (String × Json)}
    (each : ∀ entry ∈ members, ∀ rest, write rest entry.2 = write [] entry.2 ++ rest)
    (rest : List Char) : writeMembers rest members = writeMembers [] members ++ rest := by
  induction members with
  | nil => rfl
  | cons entry members ih =>
    rw [List.forall_mem_cons] at each
    rw [writeMembers, writeMembers, each.1, each.1 (writeMembers [] members), ih each.2]
    simp

theorem write_append (v : Json) : ∀ rest, write rest v = write [] v ++ rest := by
  induction v using Json.induction with
  | null => exact fun _ => rfl
  | bool b => cases b <;> exact fun _ => rfl
  | int n => simp [write]
  | float x => simp [write]
  | str s => simp [write]
  | arr items ih =>
    intro rest
    cases items with
    | nil => rfl
    | cons v items =>
      rw [List.forall_mem_cons] at ih
      rw [write, write, ih.1, ih.1 (writeItems [] items), writeItems_append ih.2, List.cons_append,
        List.append_assoc]
  | obj members ih =>
    intro rest
    cases members with
    | nil => rfl
    | cons entry members =>
      rw [List.forall_mem_cons] at ih
      rw [write, write, ih.1, ih.1 (writeMembers [] members), writeMembers_append ih.2]
      simp

/-! ### One value -/

theorem NumberText.first {text : List Char} {v : Json} (number : NumberText text v) :
    ∃ c cs, text = c :: cs ∧ isSpace c = false ∧ c ≠ ']' := by
  cases number with
  | negative takes => exact ⟨_, _, rfl, rfl, by decide⟩
  | positive digit takes =>
    refine ⟨_, _, rfl, InNumber.isSpace (.inl digit), fun same => ?_⟩
    rw [same] at digit
    exact absurd digit (by decide)

/-- The text of a value begins with no blank and with no end of an array. -/
theorem exists_write_cons {v : Json} (numbers : v.NumbersReadBack) (rest : List Char) :
    ∃ c cs, write rest v = c :: cs ∧ isSpace c = false ∧ c ≠ ']' := by
  have at_v := numbers.self
  cases v with
  | null => exact ⟨_, _, rfl, rfl, by decide⟩
  | bool b => cases b <;> exact ⟨_, _, rfl, rfl, by decide⟩
  | int n =>
    obtain ⟨c, cs, text, first⟩ := (numberText_int at_v).first
    exact ⟨c, cs ++ rest, by rw [write, text]; rfl, first⟩
  | float x =>
    obtain ⟨c, cs, text, first⟩ := (numberText_float at_v).first
    exact ⟨c, cs ++ rest, by rw [write, text]; rfl, first⟩
  | str s => exact ⟨_, _, rfl, rfl, by decide⟩
  | arr items => cases items <;> exact ⟨_, _, rfl, rfl, by decide⟩
  | obj members => cases members <;> exact ⟨_, _, rfl, rfl, by decide⟩

theorem write_pos {v : Json} (numbers : v.NumbersReadBack) : 0 < (write [] v).length := by
  obtain ⟨c, cs, text, -⟩ := exists_write_cons numbers []
  rw [text]
  exact Nat.succ_pos _

/-- A value whose reading needs no fuel but for its first character. -/
theorem readAs_of_first {depth : Nat} {v w : Json} (pos : 0 < (write [] v).length)
    (read : ∀ fuel rest, Breaks rest → readValue (fuel + 1) depth (write rest v) = some (w, rest)) :
    ReadAs depth v w := by
  intro fuel rest enough breaks
  obtain ⟨fuel, rfl⟩ : ∃ n, fuel = n + 1 := ⟨fuel - 1, by omega⟩
  exact read fuel rest breaks

/-! ### Arrays and objects -/

theorem breaks_comma (rest : List Char) : Breaks (',' :: rest) := by
  simp [Breaks]; decide

theorem breaks_bracket (rest : List Char) : Breaks (']' :: rest) := by
  simp [Breaks]; decide

theorem breaks_brace (rest : List Char) : Breaks ('}' :: rest) := by
  simp [Breaks]; decide

theorem readValue_items {c : Char} (notSpace : isSpace c = false) (noEnd : c ≠ ']')
    (fuel depth : Nat) (cs : List Char) :
    readValue (fuel + 1) (depth + 1) ('[' :: c :: cs) = readItems fuel depth [] (c :: cs) := by
  rw [readValue, skipSpace_cons rfl]
  simp only [skipSpace_cons notSpace]
  split
  case h_1 same => exact absurd (List.cons.inj same).1 noEnd
  case h_2 => rfl

theorem readValue_members (fuel depth : Nat) (key : String) (rest : List Char) :
    readValue (fuel + 1) (depth + 1) ('{' :: (quoted key ++ rest))
      = readMembers fuel depth [] (quoted key ++ rest) := by
  rw [readValue, skipSpace_cons rfl]
  rfl

/-- The items of an array are read one after the other. -/
theorem readItems_write {depth : Nat} {v : Json} {items : List Json}
    (each : ∀ w ∈ v :: items, ReadAs depth w w.ordered) {fuel : Nat} (read : List Json)
    (rest : List Char) (enough : (write (writeItems [] items) v).length ≤ fuel) :
    readItems fuel depth read (write (writeItems rest items) v)
      = some (arr (read.reverse ++ orderedItems (v :: items)), rest) := by
  induction items generalizing v fuel read with
  | nil =>
    rw [List.forall_mem_cons] at each
    rw [write_append, writeItems, List.length_append] at enough
    obtain ⟨fuel, rfl⟩ : ∃ n, fuel = n + 1 := ⟨fuel - 1, by simp at enough; omega⟩
    have first := each.1 fuel _ (by simp at enough; omega) (breaks_bracket rest)
    rw [readItems, writeItems, first]
    simp [skipSpace_cons, isSpace, orderedItems]
  | cons w items ih =>
    rw [List.forall_mem_cons] at each
    rw [write_append, writeItems, List.length_append, List.length_cons] at enough
    obtain ⟨fuel, rfl⟩ : ∃ n, fuel = n + 1 := ⟨fuel - 1, by omega⟩
    have first := each.1 fuel _ (by omega) (breaks_comma (write (writeItems rest items) w))
    rw [readItems, writeItems, first]
    simp only [skipSpace_cons (show isSpace ',' = false from rfl)]
    rw [ih each.2 (v.ordered :: read) (by omega)]
    simp [orderedItems]

section Member

variable {fuel depth : Nat} {v w : Json} (value : ReadAs depth v w)
  (enough : (write [] v).length ≤ fuel) (read : List (String × Json)) (key : String)
  (rest : List Char)

include value enough

/-- The reader goes on after a member and its comma. -/
theorem readMembers_more :
    readMembers (fuel + 1) depth read (quoted key ++ ':' :: write (',' :: rest) v)
      = readMembers fuel depth ((key, w) :: read) rest := by
  obtain ⟨text, quote, name⟩ := readString_quoted key (':' :: write (',' :: rest) v)
  rw [quote, readMembers]
  simp only [skipSpace_cons (show isSpace '"' = false from rfl), name,
    skipSpace_cons (show isSpace ':' = false from rfl), value fuel _ enough (breaks_comma rest),
    skipSpace_cons (show isSpace ',' = false from rfl)]

/-- The reader stops after a member and the brace. -/
theorem readMembers_last :
    readMembers (fuel + 1) depth read (quoted key ++ ':' :: write ('}' :: rest) v)
      = some (object ((key, w) :: read).reverse, rest) := by
  obtain ⟨text, quote, name⟩ := readString_quoted key (':' :: write ('}' :: rest) v)
  rw [quote, readMembers]
  simp only [skipSpace_cons (show isSpace '"' = false from rfl), name,
    skipSpace_cons (show isSpace ':' = false from rfl), value fuel _ enough (breaks_brace rest),
    skipSpace_cons (show isSpace '}' = false from rfl)]

end Member

/-- The members of an object are read one after the other. -/
theorem readMembers_write {depth : Nat} {entry : String × Json} {members : List (String × Json)}
    (each : ∀ e ∈ entry :: members, ReadAs depth e.2 e.2.ordered) {fuel : Nat}
    (read : List (String × Json)) (rest : List Char)
    (enough : (quoted entry.1 ++ ':' :: write (writeMembers [] members) entry.2).length ≤ fuel) :
    readMembers fuel depth read (quoted entry.1 ++ ':' :: write (writeMembers rest members) entry.2)
      = some (object (read.reverse ++ orderedMembers (entry :: members)), rest) := by
  induction members generalizing entry fuel read with
  | nil =>
    rw [List.forall_mem_cons] at each
    rw [write_append, List.length_append, List.length_cons, List.length_append] at enough
    obtain ⟨fuel, rfl⟩ : ∃ n, fuel = n + 1 := ⟨fuel - 1, by omega⟩
    rw [writeMembers, readMembers_last each.1 (by omega)]
    simp [orderedMembers]
  | cons next members ih =>
    rw [List.forall_mem_cons] at each
    rw [write_append, writeMembers, List.length_append, List.length_cons, List.length_append,
      List.length_cons] at enough
    obtain ⟨fuel, rfl⟩ : ∃ n, fuel = n + 1 := ⟨fuel - 1, by omega⟩
    rw [writeMembers, readMembers_more each.1 (by omega), ih each.2 _ (by omega)]
    simp [orderedMembers]

/-- **A value is read back from its text**, the members of its objects in order, if its numbers are
    and it is not nested too deep. -/
theorem readAs_ordered {v : Json} {depth : Nat} (numbers : v.NumbersReadBack)
    (shallow : v.depth ≤ depth) : ReadAs depth v v.ordered := by
  have pos := write_pos numbers
  induction v using Json.induction generalizing depth with
  | null => exact readAs_of_first pos fun _ _ _ => rfl
  | bool b => cases b <;> exact readAs_of_first pos fun _ _ _ => rfl
  | int n =>
    exact readAs_of_first pos fun fuel _ breaks =>
      readValue_numberText (numberText_int numbers.self) fuel depth breaks
  | float x =>
    exact readAs_of_first pos fun fuel _ breaks =>
      readValue_numberText (numberText_float numbers.self) fuel depth breaks
  | str s =>
    refine readAs_of_first pos fun fuel rest _ => ?_
    obtain ⟨text, quote, string⟩ := readString_quoted s rest
    rw [write, quote, readValue]
    simp only [skipSpace_cons (show isSpace '"' = false from rfl), string]
    rfl
  | arr items ih =>
    obtain ⟨depth, rfl⟩ : ∃ n, depth = n + 1 := ⟨depth - 1, by rw [Json.depth] at shallow; omega⟩
    rw [depth_arr_le] at shallow
    have items_numbers := (throughout_arr.mp numbers).2
    -- the values inside are nested less deep
    have each : ∀ v ∈ items, ReadAs depth v v.ordered := fun v mem =>
      ih v mem (items_numbers v mem) (shallow v mem) (write_pos (items_numbers v mem))
    cases items with
    | nil => exact readAs_of_first pos fun _ _ _ => rfl
    | cons v items =>
      intro fuel rest enough _
      obtain ⟨fuel, rfl⟩ : ∃ n, fuel = n + 1 := ⟨fuel - 1, by omega⟩
      rw [write, List.length_cons, Nat.add_le_add_iff_right] at enough
      have read := readItems_write each [] rest enough
      obtain ⟨c, cs, text, notSpace, noEnd⟩ :=
        exists_write_cons (items_numbers v List.mem_cons_self) (writeItems rest items)
      rw [text] at read
      rw [write, text, readValue_items notSpace noEnd, read]
      rfl
  | obj members ih =>
    obtain ⟨depth, rfl⟩ : ∃ n, depth = n + 1 := ⟨depth - 1, by rw [Json.depth] at shallow; omega⟩
    rw [depth_obj_le] at shallow
    have members_numbers := (throughout_obj.mp numbers).2
    have each : ∀ entry ∈ members, ReadAs depth entry.2 entry.2.ordered := fun entry mem =>
      ih entry mem (members_numbers entry mem) (shallow entry mem)
        (write_pos (members_numbers entry mem))
    cases members with
    | nil => exact readAs_of_first pos fun _ _ _ => rfl
    | cons entry members =>
      intro fuel rest enough _
      obtain ⟨fuel, rfl⟩ : ∃ n, fuel = n + 1 := ⟨fuel - 1, by omega⟩
      rw [write, List.length_cons, Nat.add_le_add_iff_right] at enough
      rw [write, readValue_members, readMembers_write each [] rest enough]
      rfl

/-- **The text of a value is read as the value**, with the members of its objects in order. -/
theorem parse_render {v : Json} (numbers : v.NumbersReadBack) (shallow : v.depth ≤ maxDepth) :
    parse? (render v) = some v.ordered := by
  rw [parse?, render, String.toList_ofList, parseChars?,
    readAs_ordered numbers shallow _ [] (Nat.le_succ _) breaks_nil]
  rfl

/-- A value that the client can hold and whose numbers are read back. -/
structure Legible (v : Json) : Prop where
  held : v.Held
  numbers : v.NumbersReadBack

theorem legible_str (s : String) : (str s).Legible :=
  ⟨throughout_str.mpr trivial, throughout_str.mpr trivial⟩

theorem legible_null : null.Legible :=
  ⟨throughout_null.mpr trivial, throughout_null.mpr trivial⟩

theorem legible_int {n : Int} (fits : Fits64 n) : (int n).Legible :=
  ⟨throughout_int.mpr fits, throughout_int.mpr fits⟩

theorem legible_arr {items : List Json} (each : ∀ v ∈ items, v.Legible) : (arr items).Legible :=
  ⟨throughout_arr.mpr ⟨trivial, fun v mem => (each v mem).held⟩,
    throughout_arr.mpr ⟨trivial, fun v mem => (each v mem).numbers⟩⟩

theorem orderedMembers_of_legible {members : List (String × Json)}
    (legible : ∀ entry ∈ members, entry.2.Legible) : orderedMembers members = members :=
  orderedMembers_of_forall fun entry mem => (legible entry mem).held.ordered

theorem numbersReadBack_obj {members : List (String × Json)}
    (legible : ∀ entry ∈ members, entry.2.Legible) : (obj members).NumbersReadBack :=
  throughout_obj.mpr ⟨trivial, fun entry mem => (legible entry mem).numbers⟩

end LanguageClient.Json
