import LanguageClient.Registry
import Mathlib.Data.List.Sort
import Mathlib.Tactic.SplitIfs
/-!
# Changes of the registry

What a server registers and takes back changes the registry id by id: `RegistryChange.word` tells what
a change says of an id, and `get?_apply` that this is what becomes of the id.  A registry in order is
determined by what is registered under each id (`ext_get?`), so changes that speak of different ids may
change places (`apply_comm`).

Changes that have numbers may be made in another order than that of their numbers: as long as those
that change places speak of different ids, the registry comes out the same (`replay_turns`).
-/

namespace LanguageClient

namespace CapabilityRegistry

variable {c c' : CapabilityRegistry} {r q : Registration} {rs : List Registration} {id : String}

def get? (c : CapabilityRegistry) (id : String) : Option Registration :=
  c.registrations.find? (·.id = id)

/-- The registrations are in the order of their ids, each id once. -/
def Ordered (c : CapabilityRegistry) : Prop :=
  c.registrations.Pairwise (·.id < ·.id)

/-! ## One registration -/

theorem mem_of_mem_insert (among : q ∈ insert r rs) : q = r ∨ q ∈ rs := by
  induction rs with
  | nil => simpa [insert] using among
  | cons head rest ih =>
    simp only [insert] at among
    split_ifs at among with same before
    · exact (List.mem_cons.mp among).imp_right (List.mem_cons_of_mem _)
    · exact List.mem_cons.mp among
    · rcases List.mem_cons.mp among with rfl | later
      · exact .inr List.mem_cons_self
      · exact (ih later).imp_right (List.mem_cons_of_mem _)

theorem pairwise_insert (ordered : rs.Pairwise (·.id < ·.id)) :
    (insert r rs).Pairwise (·.id < ·.id) := by
  induction rs with
  | nil => exact List.pairwise_singleton _ _
  | cons head rest ih =>
    obtain ⟨least, restOrdered⟩ := List.pairwise_cons.mp ordered
    simp only [insert]
    split_ifs with same before
    · exact List.pairwise_cons.mpr ⟨same ▸ least, restOrdered⟩
    · refine List.pairwise_cons.mpr ⟨fun q among => ?_, ordered⟩
      rcases List.mem_cons.mp among with rfl | later
      · exact before
      · exact String.lt_trans before (least q later)
    · refine List.pairwise_cons.mpr ⟨fun q among => ?_, ih restOrdered⟩
      rcases mem_of_mem_insert among with rfl | later
      · exact String.not_le.mp fun below =>
          same (String.le_antisymm below (String.not_lt.mp before))
      · exact least q later

theorem find?_insert : (insert r rs).find? (·.id = id) =
    if r.id = id then some r else rs.find? (·.id = id) := by
  induction rs with
  | nil => by_cases named : r.id = id <;> simp [insert, named]
  | cons head rest ih =>
    simp only [insert]
    split_ifs with same before named named named
    · simp [before]
    · simp [before, ← same]
    · simp [named]
    · simp [named]
    · simp [ih, if_pos named, show head.id ≠ id from fun other => same (named.trans other.symm)]
    · by_cases head : head.id = id <;> simp [head, ih, named]

theorem find?_filter_ne (other : String) :
    (rs.filter (·.id ≠ other)).find? (·.id = id) =
      if other = id then none else rs.find? (·.id = id) := by
  rw [List.find?_filter]
  by_cases same : other = id
  · simp [same]
  · rw [if_neg same]
    congr 1
    funext r
    by_cases named : r.id = id <;> simp [named, Ne.symm same]

/-! ## Registries as tables -/

theorem Ordered.mem_iff (ordered : c.Ordered) : r ∈ c.registrations ↔ c.get? r.id = some r := by
  refine ⟨fun among => ?_, List.mem_of_find?_eq_some⟩
  obtain ⟨q, found⟩ : ∃ q, c.get? r.id = some q :=
    Option.isSome_iff_exists.mp (List.find?_isSome.mpr ⟨r, among, by simp⟩)
  have same : q.id = r.id := by simpa using List.find?_some found
  have distinct : (c.registrations.map (·.id)).Nodup :=
    List.pairwise_map.mpr (ordered.imp String.ne_of_lt)
  rw [found, List.inj_on_of_nodup_map distinct (List.mem_of_find?_eq_some found) among same]

/-- A registry in order is determined by what is registered under each id. -/
theorem Ordered.ext_get? (ordered : c.Ordered) (ordered' : c'.Ordered)
    (same : ∀ id, c.get? id = c'.get? id) : c = c' := by
  have distinct : ∀ {c : CapabilityRegistry}, c.Ordered → c.registrations.Nodup := fun ordered =>
    ordered.imp fun before same => String.ne_of_lt before (congrArg Registration.id same)
  have perm : c.registrations.Perm c'.registrations :=
    (List.perm_ext_iff_of_nodup (distinct ordered) (distinct ordered')).mpr fun r => by
      rw [ordered.mem_iff, ordered'.mem_iff, same]
  have equal := perm.eq_of_pairwise
    (fun r q _ _ before after => absurd (String.lt_trans before after) (String.lt_irrefl _))
    ordered ordered'
  cases c
  cases c'
  exact congrArg CapabilityRegistry.mk equal

theorem ordered_register (rs : List Registration) (ordered : c.Ordered) : (c.register rs).Ordered := by
  unfold register Ordered
  induction rs generalizing c with
  | nil => exact ordered
  | cons r rs ih => exact ih (c := ⟨insert r c.registrations⟩) (pairwise_insert ordered)

theorem ordered_unregister (us : List Unregistration) (ordered : c.Ordered) :
    (c.unregister us).Ordered := by
  unfold unregister Ordered
  induction us generalizing c with
  | nil => exact ordered
  | cons u us ih => exact ih (c := ⟨c.registrations.filter (·.id ≠ u.id)⟩) (ordered.filter _)

/-- Of several registrations with one id the last one stays. -/
theorem get?_register (rs : List Registration) :
    (c.register rs).get? id = (rs.reverse.find? (·.id = id)).or (c.get? id) := by
  unfold register get?
  induction rs generalizing c with
  | nil => rfl
  | cons r rs ih =>
    rw [List.foldl_cons, ih (c := ⟨insert r c.registrations⟩), List.reverse_cons, List.find?_append,
      Option.or_assoc]
    congr 1
    rw [find?_insert]
    by_cases named : r.id = id <;> simp [named]

theorem get?_unregister (us : List Unregistration) :
    (c.unregister us).get? id = if us.any (·.id = id) then none else c.get? id := by
  unfold unregister get?
  induction us generalizing c with
  | nil => rfl
  | cons u us ih =>
    rw [List.foldl_cons, ih (c := ⟨c.registrations.filter (·.id ≠ u.id)⟩), find?_filter_ne]
    by_cases named : u.id = id <;> by_cases later : us.any (·.id = id) <;> simp_all

end CapabilityRegistry

/-! ## Changes -/

/-- What a request of the server asks of the registry. -/
inductive RegistryChange where
  | register (registrations : List Registration)
  | unregister (unregistrations : List Unregistration)
  deriving DecidableEq

namespace RegistryChange

variable {a b : RegistryChange} {c : CapabilityRegistry} {id : String}

/-- What becomes of a registry by a change. -/
def apply : RegistryChange → CapabilityRegistry → CapabilityRegistry
  | register registrations, c => c.register registrations
  | unregister unregistrations, c => c.unregister unregistrations

/-- What a change says of an id, if it names the id: what is registered under it then, if anything. -/
def word (id : String) : RegistryChange → Option (Option Registration)
  | register registrations => (registrations.reverse.find? (·.id = id)).map some
  | unregister unregistrations => if unregistrations.any (·.id = id) then some none else none

/-- Two changes that name no common id. -/
def Apart (a b : RegistryChange) : Prop :=
  ∀ id, a.word id = none ∨ b.word id = none

theorem ordered_apply (a : RegistryChange) (ordered : c.Ordered) : (a.apply c).Ordered := by
  cases a with
  | register registrations => exact CapabilityRegistry.ordered_register _ ordered
  | unregister unregistrations => exact CapabilityRegistry.ordered_unregister _ ordered

/-- The ids that a change names are as it says, and the others as they were. -/
theorem get?_apply (a : RegistryChange) : (a.apply c).get? id = (a.word id).getD (c.get? id) := by
  cases a with
  | register registrations =>
    rw [apply, CapabilityRegistry.get?_register, word]
    cases registrations.reverse.find? (·.id = id) <;> rfl
  | unregister unregistrations =>
    rw [apply, CapabilityRegistry.get?_unregister, word]
    split <;> rfl

/-- Changes that name no common id may change places. -/
theorem apply_comm (apart : a.Apart b) (ordered : c.Ordered) :
    a.apply (b.apply c) = b.apply (a.apply c) := by
  refine (ordered_apply a (ordered_apply b ordered)).ext_get?
    (ordered_apply b (ordered_apply a ordered)) fun id => ?_
  simp only [get?_apply]
  rcases apart id with silent | silent <;> simp [silent]

def replay (changes : List RegistryChange) (c : CapabilityRegistry) : CapabilityRegistry :=
  changes.foldl (fun c change => change.apply c) c

/-! ## Changes out of order -/

/-- A numbered change may be made later, after those with smaller numbers, when it names no id that
    they name. -/
theorem replay_orderedInsert {turn : Nat × RegistryChange} {turns : List (Nat × RegistryChange)}
    (agree : ∀ other ∈ turns, turn.1 ≤ other.1 ∨ turn.2.Apart other.2) (ordered : c.Ordered) :
    replay ((turns.orderedInsert (·.1 ≤ ·.1) turn).map (·.2)) c =
      replay (turn.2 :: turns.map (·.2)) c := by
  induction turns generalizing c with
  | nil => rfl
  | cons head rest ih =>
    by_cases before : turn.1 ≤ head.1
    · simp [List.orderedInsert, before]
    · have apart : turn.2.Apart head.2 := (agree head (by simp)).resolve_left before
      calc replay (((head :: rest).orderedInsert (·.1 ≤ ·.1) turn).map (·.2)) c
          = replay ((rest.orderedInsert (·.1 ≤ ·.1) turn).map (·.2)) (head.2.apply c) := by
            simp [List.orderedInsert, before, replay]
        _ = replay (rest.map (·.2)) (turn.2.apply (head.2.apply c)) :=
            ih (fun other among => agree other (by simp [among])) (ordered_apply _ ordered)
        _ = replay (rest.map (·.2)) (head.2.apply (turn.2.apply c)) := by
            rw [apply_comm apart ordered]

theorem replay_insertionSort {turns : List (Nat × RegistryChange)}
    (agree : turns.Pairwise fun a b => a.1 ≤ b.1 ∨ a.2.Apart b.2) (ordered : c.Ordered) :
    replay ((turns.insertionSort (·.1 ≤ ·.1)).map (·.2)) c = replay (turns.map (·.2)) c := by
  induction turns generalizing c with
  | nil => rfl
  | cons turn turns ih =>
    obtain ⟨first, rest⟩ := List.pairwise_cons.mp agree
    rw [List.insertionSort_cons, replay_orderedInsert (fun other among =>
      first other ((List.perm_insertionSort _ _).mem_iff.mp among)) ordered]
    exact ih rest (ordered_apply _ ordered)

/-- Changes that are made in another order than that of their numbers come to the same, when those
    that change places name no common id. -/
theorem replay_turns {turns numbered : List (Nat × RegistryChange)} (perm : turns.Perm numbered)
    (ascending : numbered.Pairwise (·.1 < ·.1))
    (agree : turns.Pairwise fun a b => a.1 ≤ b.1 ∨ a.2.Apart b.2) (ordered : c.Ordered) :
    replay (turns.map (·.2)) c = replay (numbered.map (·.2)) c := by
  have distinct : (numbered.map (·.1)).Nodup := List.pairwise_map.mpr (ascending.imp Nat.ne_of_lt)
  have sorted : turns.insertionSort (·.1 ≤ ·.1) = numbered :=
    ((List.perm_insertionSort _ turns).trans perm).eq_of_pairwise
      (fun a b among among' le le' => List.inj_on_of_nodup_map distinct
        (perm.mem_iff.mp ((List.perm_insertionSort _ turns).mem_iff.mp among)) among'
        (Nat.le_antisymm le le'))
      (List.pairwise_insertionSort _ turns) (ascending.imp Nat.le_of_lt)
  rw [← replay_insertionSort agree ordered, sorted]

end RegistryChange

end LanguageClient
