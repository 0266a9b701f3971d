import LanguageClient.Number.Binary64
/-!
# JSON values

A JSON value as the client holds it.  Integers are exact; a number that is no 64-bit integer is a
binary floating point number.  The members of an object are kept in the order of their names, each
name once, so that equal objects are equal values: build objects with `Json.object`, which keeps
the last of several members of one name.
-/

namespace LanguageClient

inductive Json where
  | null
  | bool (b : Bool)
  | int (n : Int)
  | float (x : Binary64)
  | str (s : String)
  | arr (items : List Json)
  | obj (members : List (String × Json))
  deriving Inhabited

namespace Json

/-! ## Equality -/

mutual

/-- Whether two values are the same. -/
def same : Json → Json → Bool
  | null, null => true
  | bool a, bool b => a == b
  | int a, int b => a == b
  | float a, float b => a == b
  | str a, str b => a == b
  | arr as, arr bs => sameItems as bs
  | obj as, obj bs => sameMembers as bs
  | _, _ => false

/-- Whether two lists hold the same values in the same order. -/
def sameItems : List Json → List Json → Bool
  | [], [] => true
  | a :: as, b :: bs => same a b && sameItems as bs
  | _, _ => false

/-- Whether two lists of members are the same. -/
def sameMembers : List (String × Json) → List (String × Json) → Bool
  | [], [] => true
  | (k, a) :: as, (l, b) :: bs => k == l && same a b && sameMembers as bs
  | _, _ => false

end

mutual

theorem eq_of_same : ∀ {a b : Json}, same a b = true → a = b
  | null, b, h => by cases b <;> simp_all [same]
  | bool a, b, h => by cases b <;> simp_all [same]
  | int a, b, h => by cases b <;> simp_all [same]
  | float a, b, h => by cases b <;> simp_all [same]
  | str a, b, h => by cases b <;> simp_all [same]
  | arr as, b, h => by
    cases b <;> try (simp [same] at h; done)
    simp only [same] at h
    rw [eq_of_sameItems h]
  | obj as, b, h => by
    cases b <;> try (simp [same] at h; done)
    simp only [same] at h
    rw [eq_of_sameMembers h]

theorem eq_of_sameItems : ∀ {as bs : List Json}, sameItems as bs = true → as = bs
  | [], [], _ => rfl
  | a :: as, b :: bs, h => by
    simp only [sameItems, Bool.and_eq_true] at h
    rw [eq_of_same h.1, eq_of_sameItems h.2]
  | [], _ :: _, h => by simp [sameItems] at h
  | _ :: _, [], h => by simp [sameItems] at h

theorem eq_of_sameMembers : ∀ {as bs : List (String × Json)}, sameMembers as bs = true → as = bs
  | [], [], _ => rfl
  | (k, a) :: as, (l, b) :: bs, h => by
    simp only [sameMembers, Bool.and_eq_true, beq_iff_eq] at h
    rw [h.1.1, eq_of_same h.1.2, eq_of_sameMembers h.2]
  | [], _ :: _, h => by simp [sameMembers] at h
  | _ :: _, [], h => by simp [sameMembers] at h

end

mutual

theorem same_self : ∀ a : Json, same a a = true
  | null => rfl
  | bool _ => by simp [same]
  | int _ => by simp [same]
  | float _ => by simp [same]
  | str _ => by simp [same]
  | arr as => by simp only [same]; exact sameItems_self as
  | obj as => by simp only [same]; exact sameMembers_self as

theorem sameItems_self : ∀ as : List Json, sameItems as as = true
  | [] => rfl
  | a :: as => by simp only [sameItems, same_self a, sameItems_self as, Bool.and_self]

theorem sameMembers_self : ∀ as : List (String × Json), sameMembers as as = true
  | [] => rfl
  | (k, a) :: as => by
    simp only [sameMembers, beq_self_eq_true, same_self a, sameMembers_self as, Bool.and_self]

end

theorem same_iff {a b : Json} : same a b = true ↔ a = b :=
  ⟨eq_of_same, fun h => h ▸ same_self a⟩

instance : DecidableEq Json := fun _ _ => decidable_of_iff _ same_iff

/-! ## Objects -/

/-- Puts a member into a list ordered by name, in place of one of the same name. -/
def insertMember (key : String) (value : Json) : List (String × Json) → List (String × Json)
  | [] => [(key, value)]
  | (k, v) :: rest =>
    if key = k then (key, value) :: rest
    else if key < k then (key, value) :: (k, v) :: rest
    else (k, v) :: insertMember key value rest

/-- The members of a list in the order of their names, the last of each name kept. -/
def sortMembers (members : List (String × Json)) : List (String × Json) :=
  members.foldl (fun sorted (k, v) => insertMember k v sorted) []

def object (members : List (String × Json)) : Json :=
  obj (sortMembers members)

/-- The value of a member of an object. -/
def get? (key : String) : Json → Option Json
  | obj members => members.lookup key
  | _ => none

def text? : Json → Option String
  | str s => some s
  | _ => none

def bool? : Json → Option Bool
  | bool b => some b
  | _ => none

def items? : Json → Option (List Json)
  | arr items => some items
  | _ => none

/-! ## Texts -/

mutual

/-- Changes every text of a value, those of the names of members included. -/
def mapTexts (f : String → String) : Json → Json
  | str s => str (f s)
  | arr items => arr (mapItems f items)
  | obj members => object (mapMembers f members)
  | v => v

/-- Changes every text of some items. -/
def mapItems (f : String → String) : List Json → List Json
  | [] => []
  | v :: rest => mapTexts f v :: mapItems f rest

/-- Changes every text of some members. -/
def mapMembers (f : String → String) : List (String × Json) → List (String × Json)
  | [] => []
  | (k, v) :: rest => (f k, mapTexts f v) :: mapMembers f rest

end

end Json

end LanguageClient
