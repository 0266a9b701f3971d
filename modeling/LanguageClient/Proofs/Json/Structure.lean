import LanguageClient.Proofs.Json.Members
import LanguageClient.Proofs.Json.Number
/-!
# Values and what is in them

`Json.induction` is the induction on values that speaks of items and members by membership.  What
holds of a value and of everything in it is `Throughout`; how deep arrays and objects are nested is
`depth`; and `ordered` puts the members of all objects in order.

A value that was read, or built with `Json.object`, is `Held`: its integers have 64 bits and its
objects have their members in order.  Such a value is `ordered` already.
-/

namespace LanguageClient.Json

/-! ## Induction -/

/-- What holds of a value when it holds of all items or members, holds of all values. -/
theorem induction {motive : Json → Prop}
    (null : motive null) (bool : ∀ b, motive (bool b)) (int : ∀ n, motive (int n))
    (float : ∀ x, motive (float x)) (str : ∀ s, motive (str s))
    (arr : ∀ items, (∀ v ∈ items, motive v) → motive (arr items))
    (obj : ∀ members, (∀ entry ∈ members, motive entry.2) → motive (obj members)) (v : Json) :
    motive v := by
  cases v with
  | null => exact null
  | bool b => exact bool b
  | int n => exact int n
  | float x => exact float x
  | str s => exact str s
  | arr items => exact arr items fun v _ => induction null bool int float str arr obj v
  | obj members =>
    exact obj members fun entry _ => induction null bool int float str arr obj entry.2
termination_by sizeOf v
decreasing_by
  · have := List.sizeOf_lt_of_mem ‹v ∈ items›
    simp only [Json.arr.sizeOf_spec]
    omega
  · have := List.sizeOf_lt_of_mem ‹entry ∈ members›
    have : sizeOf entry = 1 + sizeOf entry.1 + sizeOf entry.2 := rfl
    simp only [Json.obj.sizeOf_spec]
    omega

/-! ## What holds throughout a value -/

/-- A value is another one or occurs in it. -/
inductive Within (w : Json) : Json → Prop
  | self : Within w w
  | item {v : Json} {items : List Json} (within : Within w v) (mem : v ∈ items) :
    Within w (arr items)
  | member {entry : String × Json} {members : List (String × Json)} (within : Within w entry.2)
    (mem : entry ∈ members) : Within w (obj members)

/-- A property of a value and of everything in it. -/
def Throughout (p : Json → Prop) (v : Json) : Prop :=
  ∀ w, Within w v → p w

variable {p : Json → Prop} {items : List Json} {members : List (String × Json)}

theorem Throughout.self {v : Json} (all : v.Throughout p) : p v :=
  all v .self

@[simp] theorem throughout_null : Throughout p null ↔ p null :=
  ⟨Throughout.self, fun h w within => by cases within; exact h⟩

@[simp] theorem throughout_bool {b : Bool} : Throughout p (bool b) ↔ p (bool b) :=
  ⟨Throughout.self, fun h w within => by cases within; exact h⟩

@[simp] theorem throughout_int {n : Int} : Throughout p (int n) ↔ p (int n) :=
  ⟨Throughout.self, fun h w within => by cases within; exact h⟩

@[simp] theorem throughout_float {x : Binary64} : Throughout p (float x) ↔ p (float x) :=
  ⟨Throughout.self, fun h w within => by cases within; exact h⟩

@[simp] theorem throughout_str {s : String} : Throughout p (str s) ↔ p (str s) :=
  ⟨Throughout.self, fun h w within => by cases within; exact h⟩

theorem throughout_arr : Throughout p (arr items) ↔ p (arr items) ∧ ∀ v ∈ items, v.Throughout p :=
  ⟨fun all => ⟨all.self, fun _ mem w within => all w (.item within mem)⟩,
    fun ⟨self, all⟩ w within => by
      cases within with
      | self => exact self
      | item within mem => exact all _ mem w within⟩

theorem throughout_obj : Throughout p (obj members)
    ↔ p (obj members) ∧ ∀ entry ∈ members, entry.2.Throughout p :=
  ⟨fun all => ⟨all.self, fun _ mem w within => all w (.member within mem)⟩,
    fun ⟨self, all⟩ w within => by
      cases within with
      | self => exact self
      | member within mem => exact all _ mem w within⟩

/-! ## Depth -/

mutual

/-- How many arrays and objects are nested in a value. -/
def depth : Json → Nat
  | arr items => itemsDepth items + 1
  | obj members => membersDepth members + 1
  | _ => 0

def itemsDepth : List Json → Nat
  | [] => 0
  | v :: items => max (depth v) (itemsDepth items)

def membersDepth : List (String × Json) → Nat
  | [] => 0
  | (_, v) :: members => max (depth v) (membersDepth members)

end

theorem itemsDepth_le {d : Nat} : itemsDepth items ≤ d ↔ ∀ v ∈ items, v.depth ≤ d := by
  induction items with
  | nil => simp [itemsDepth]
  | cons v items ih => rw [itemsDepth, Nat.max_le, ih, List.forall_mem_cons]

theorem membersDepth_le {d : Nat} :
    membersDepth members ≤ d ↔ ∀ entry ∈ members, entry.2.depth ≤ d := by
  induction members with
  | nil => simp [membersDepth]
  | cons entry members ih => rw [membersDepth, Nat.max_le, ih, List.forall_mem_cons]

/-- An array is nested within a depth when its items are within one less. -/
theorem depth_arr_le {d : Nat} : (arr items).depth ≤ d + 1 ↔ ∀ v ∈ items, v.depth ≤ d := by
  rw [depth, Nat.add_le_add_iff_right, itemsDepth_le]

theorem depth_obj_le {d : Nat} :
    (obj members).depth ≤ d + 1 ↔ ∀ entry ∈ members, entry.2.depth ≤ d := by
  rw [depth, Nat.add_le_add_iff_right, membersDepth_le]

/-! ## The order of members -/

mutual

/-- A value with the members of all its objects in the order of their names, the last of each name
    kept. -/
def ordered : Json → Json
  | arr items => arr (orderedItems items)
  | obj members => object (orderedMembers members)
  | v => v

/-- Items with their members in order. -/
def orderedItems : List Json → List Json
  | [] => []
  | v :: items => ordered v :: orderedItems items

/-- Members with those within them in order. -/
def orderedMembers : List (String × Json) → List (String × Json)
  | [] => []
  | (k, v) :: members => (k, ordered v) :: orderedMembers members

end

/-- What a value is on its own when the client holds it: an integer of 64 bits, an object with its
    members in order, or any value of another kind. -/
def HeldAt : Json → Prop
  | int n => Fits64 n
  | obj members => InOrder members
  | _ => True

/-- A value as the client holds it. -/
def Held (v : Json) : Prop :=
  v.Throughout HeldAt

theorem orderedItems_of_forall (same : ∀ v ∈ items, v.ordered = v) :
    orderedItems items = items := by
  induction items with
  | nil => rfl
  | cons v items ih =>
    rw [List.forall_mem_cons] at same
    rw [orderedItems, same.1, ih same.2]

theorem orderedMembers_of_forall (same : ∀ entry ∈ members, entry.2.ordered = entry.2) :
    orderedMembers members = members := by
  induction members with
  | nil => rfl
  | cons entry members ih =>
    rw [List.forall_mem_cons] at same
    rw [orderedMembers, same.1, ih same.2]

theorem orderedMembers_append (members more : List (String × Json)) :
    orderedMembers (members ++ more) = orderedMembers members ++ orderedMembers more := by
  induction members with
  | nil => rfl
  | cons entry members ih =>
    rw [List.cons_append, orderedMembers, orderedMembers, ih, List.cons_append]

/-- The members of a held value are in order. -/
theorem Held.ordered {v : Json} (held : v.Held) : v.ordered = v := by
  induction v using Json.induction with
  | null => rfl
  | bool b => rfl
  | int n => rfl
  | float x => rfl
  | str s => rfl
  | arr items ih =>
    have items := (throughout_arr.mp held).2
    rw [Json.ordered, orderedItems_of_forall fun v mem => ih v mem (items v mem)]
  | obj members ih =>
    obtain ⟨inOrder, members⟩ := throughout_obj.mp held
    rw [Json.ordered, orderedMembers_of_forall fun entry mem => ih entry mem (members entry mem),
      object, sortMembers_of_inOrder inOrder]

/-- An object of held values is held. -/
theorem held_object (held : ∀ entry ∈ members, entry.2.Held) : (object members).Held :=
  throughout_obj.mpr ⟨inOrder_sortMembers members, fun entry mem =>
    held entry (mem_of_mem_sortMembers mem)⟩

end LanguageClient.Json
