/-!
# Tables

A table has one value for each of finitely many keys, in the order in which the keys came into it.
Putting a value under a key that is there changes the value and keeps the place.
-/

namespace LanguageClient

/-- Values under keys, each key once when the table is built by `put`. -/
abbrev Table (α β : Type) := List (α × β)

namespace Table

variable {α β : Type} [DecidableEq α]

def get? (t : Table α β) (key : α) : Option β :=
  match t with
  | [] => none
  | (k, v) :: rest => if k = key then some v else get? rest key

def has (t : Table α β) (key : α) : Bool :=
  (t.get? key).isSome

/-- Puts a value under a key, in the place of the value that is there. -/
def put (t : Table α β) (key : α) (value : β) : Table α β :=
  match t with
  | [] => [(key, value)]
  | (k, v) :: rest => if k = key then (key, value) :: rest else (k, v) :: put rest key value

/-- Takes the value under a key away. -/
def erase (t : Table α β) (key : α) : Table α β :=
  match t with
  | [] => []
  | (k, v) :: rest => if k = key then erase rest key else (k, v) :: erase rest key

def keys (t : Table α β) : List α :=
  t.map (·.1)

def values (t : Table α β) : List β :=
  t.map (·.2)

@[simp] theorem get?_nil (key : α) : get? ([] : Table α β) key = none := rfl

@[simp] theorem get?_put (t : Table α β) (key key' : α) (value : β) :
    (t.put key value).get? key' = if key = key' then some value else t.get? key' := by
  induction t with
  | nil => simp [put, get?]
  | cons entry rest ih =>
    obtain ⟨k, v⟩ := entry
    by_cases h : k = key
    · subst h; by_cases h' : k = key' <;> simp [put, get?, h']
    · by_cases h' : k = key'
      · subst h'; simp [put, get?, h, Ne.symm h]
      · simp [put, get?, h, h', ih]

@[simp] theorem get?_erase (t : Table α β) (key key' : α) :
    (t.erase key).get? key' = if key = key' then none else t.get? key' := by
  induction t with
  | nil => simp [erase, get?]
  | cons entry rest ih =>
    obtain ⟨k, v⟩ := entry
    by_cases h : k = key
    · subst h; by_cases h' : k = key' <;> simp_all [erase, get?]
    · by_cases h' : k = key'
      · subst h'; simp [erase, get?, h, Ne.symm h]
      · simp [erase, get?, h, h', ih]

theorem mem_values_of_get? {t : Table α β} {key : α} {value : β} (h : t.get? key = some value) :
    value ∈ t.values := by
  induction t with
  | nil => simp at h
  | cons entry rest ih =>
    obtain ⟨k, v⟩ := entry
    by_cases same : k = key
    · simp [get?, same] at h
      simp [values, h]
    · simp only [get?, if_neg same] at h
      simpa [values] using Or.inr (ih h)

/-- Putting a value adds no other value. -/
theorem mem_values_put {t : Table α β} {key : α} {value other : β}
    (h : other ∈ (t.put key value).values) : other = value ∨ other ∈ t.values := by
  induction t with
  | nil => simpa [put, values] using h
  | cons entry rest ih =>
    obtain ⟨k, v⟩ := entry
    by_cases same : k = key
    · simp only [put, if_pos same, values, List.map_cons, List.mem_cons] at h ⊢
      exact h.imp id Or.inr
    · simp only [put, if_neg same, values, List.map_cons, List.mem_cons] at h ⊢
      rcases h with h | h
      · exact Or.inr (Or.inl h)
      · exact (ih h).imp id Or.inr

theorem mem_values_erase {t : Table α β} {key : α} {value : β}
    (h : value ∈ (t.erase key).values) : value ∈ t.values := by
  induction t with
  | nil => exact h
  | cons entry rest ih =>
    obtain ⟨k, v⟩ := entry
    by_cases same : k = key
    · simp only [erase, if_pos same] at h
      simpa [values] using Or.inr (ih h)
    · simp only [erase, if_neg same, values, List.map_cons, List.mem_cons] at h ⊢
      exact h.imp id ih

theorem mem_keys_put {t : Table α β} {key other : α} {value : β} :
    other ∈ (t.put key value).keys ↔ other = key ∨ other ∈ t.keys := by
  induction t with
  | nil => simp [put, keys]
  | cons entry rest ih =>
    obtain ⟨k, v⟩ := entry
    by_cases same : k = key
    · subst same
      simp [put, keys]
    · simp only [keys, put, if_neg same, List.map_cons, List.mem_cons] at ih ⊢
      rw [ih]
      exact or_left_comm

/-- Putting a value keeps each key once. -/
theorem nodup_keys_put {t : Table α β} (distinct : t.keys.Nodup) (key : α) (value : β) :
    (t.put key value).keys.Nodup := by
  induction t with
  | nil => simp [put, keys]
  | cons entry rest ih =>
    obtain ⟨k, v⟩ := entry
    obtain ⟨fresh, restDistinct⟩ := List.nodup_cons.mp distinct
    by_cases same : k = key
    · subst same
      simpa only [put, if_pos, keys, List.map_cons] using distinct
    · simp only [put, if_neg same, keys, List.map_cons]
      refine List.nodup_cons.mpr ⟨fun among => ?_, ih restDistinct⟩
      exact (mem_keys_put.mp among).elim same fresh

end Table

end LanguageClient
