import Mathlib.Data.List.Induction
import Mathlib.Tactic.SplitIfs
import LanguageClient.Json.Basic
/-!
# The members of an object

`Json.sortMembers` keeps members in the order of their names, each name once.  What holds of the
members that are left is said here, about `insertMember` first and then about the whole list: they
are in order, members that are in order stay as they are, and where no name comes twice no member
is lost and each is found by its name.
-/

namespace LanguageClient.Json

/-- The members are in the order of their names, each name once. -/
def InOrder (members : List (String × Json)) : Prop :=
  members.Pairwise (·.1 < ·.1)

/-- No two members have the same name. -/
def DistinctNames (members : List (String × Json)) : Prop :=
  (members.map (·.1)).Nodup

variable {key name : String} {value : Json} {entry : String × Json}
  {members members' : List (String × Json)}

theorem InOrder.distinctNames (inOrder : InOrder members) : DistinctNames members :=
  List.pairwise_map.mpr (inOrder.imp fun before => String.ne_of_lt before)

/-! ## Inserting one member -/

theorem mem_of_mem_insertMember (mem : entry ∈ insertMember key value members) :
    entry = (key, value) ∨ entry ∈ members := by
  induction members with
  | nil => simpa [insertMember] using mem
  | cons head rest ih =>
    obtain ⟨k, v⟩ := head
    simp only [insertMember] at mem
    split_ifs at mem with same before
    · exact (List.mem_cons.mp mem).imp_right (List.mem_cons_of_mem _)
    · exact List.mem_cons.mp mem
    · rcases List.mem_cons.mp mem with rfl | later
      · exact .inr List.mem_cons_self
      · exact (ih later).imp_right (List.mem_cons_of_mem _)

theorem InOrder.insertMember (inOrder : InOrder members) :
    InOrder (insertMember key value members) := by
  induction members with
  | nil => exact List.pairwise_singleton _ _
  | cons head rest ih =>
    obtain ⟨k, v⟩ := head
    obtain ⟨least, restInOrder⟩ := List.pairwise_cons.mp inOrder
    simp only [Json.insertMember]
    split_ifs with same before
    · exact List.pairwise_cons.mpr ⟨same ▸ least, restInOrder⟩
    · refine List.pairwise_cons.mpr ⟨fun entry mem => ?_, inOrder⟩
      rcases List.mem_cons.mp mem with rfl | later
      · exact before
      · exact String.lt_trans before (least entry later)
    · refine List.pairwise_cons.mpr ⟨fun entry mem => ?_, ih restInOrder⟩
      rcases mem_of_mem_insertMember mem with rfl | later
      · exact String.not_le.mp fun below =>
          same (String.le_antisymm below (String.not_lt.mp before))
      · exact least entry later

/-- A new name is put in and nothing is taken out. -/
theorem insertMember_perm (new : key ∉ members.map (·.1)) :
    (insertMember key value members).Perm ((key, value) :: members) := by
  induction members with
  | nil => exact List.Perm.refl _
  | cons head rest ih =>
    obtain ⟨k, v⟩ := head
    simp only [List.map_cons, List.mem_cons, not_or] at new
    simp only [insertMember, if_neg new.1]
    split_ifs with before
    · exact List.Perm.refl _
    · exact ((ih new.2).cons _).trans (List.Perm.swap _ _ _)

/-- A name after all others is put at the end. -/
theorem insertMember_of_last (last : ∀ entry ∈ members, entry.1 < key) :
    insertMember key value members = members ++ [(key, value)] := by
  induction members with
  | nil => rfl
  | cons head rest ih =>
    obtain ⟨k, v⟩ := head
    rw [List.forall_mem_cons] at last
    rw [insertMember, if_neg (String.ne_of_lt last.1).symm, if_neg (String.lt_asymm last.1),
      ih last.2, List.cons_append]

/-! ## All members -/

theorem sortMembers_concat : sortMembers (members ++ [entry])
    = insertMember entry.1 entry.2 (sortMembers members) := by
  simp only [sortMembers, List.foldl_append, List.foldl_cons, List.foldl_nil]

theorem inOrder_sortMembers (members : List (String × Json)) : InOrder (sortMembers members) := by
  induction members using List.reverseRecOn with
  | nil => exact List.Pairwise.nil
  | append_singleton members entry ih =>
    rw [sortMembers_concat]
    exact ih.insertMember

theorem mem_of_mem_sortMembers (mem : entry ∈ sortMembers members) : entry ∈ members := by
  induction members using List.reverseRecOn with
  | nil => exact mem
  | append_singleton members last ih =>
    rw [sortMembers_concat] at mem
    rcases mem_of_mem_insertMember mem with rfl | earlier
    · exact List.mem_append_right _ List.mem_cons_self
    · exact List.mem_append_left _ (ih earlier)

/-- Members that are in order stay as they are. -/
theorem sortMembers_of_inOrder (inOrder : InOrder members) : sortMembers members = members := by
  induction members using List.reverseRecOn with
  | nil => rfl
  | append_singleton members last ih =>
    obtain ⟨before, -, after⟩ := List.pairwise_append.mp inOrder
    rw [sortMembers_concat, ih before]
    exact insertMember_of_last fun entry mem => after entry mem last List.mem_cons_self

/-- Where no name comes twice, all members are kept. -/
theorem sortMembers_perm (distinct : DistinctNames members) :
    (sortMembers members).Perm members := by
  induction members using List.reverseRecOn with
  | nil => exact List.Perm.refl _
  | append_singleton members last ih =>
    rw [DistinctNames, List.map_append, List.nodup_append] at distinct
    obtain ⟨earlier, -, apart⟩ := distinct
    have kept := ih earlier
    have new : last.1 ∉ (sortMembers members).map (·.1) := fun mem =>
      apart last.1 ((kept.map _).mem_iff.mp mem) last.1 (by simp) rfl
    rw [sortMembers_concat]
    have inserted : (insertMember last.1 last.2 (sortMembers members)).Perm
        (last :: sortMembers members) := insertMember_perm new
    exact inserted.trans ((kept.cons last).trans (List.perm_append_singleton last members).symm)

/-! ## Finding a member -/

/-- Where no name comes twice, a member is found by its name. -/
theorem lookup_of_mem (distinct : DistinctNames members) (mem : (key, value) ∈ members) :
    members.lookup key = some value := by
  induction members with
  | nil => cases mem
  | cons head rest ih =>
    obtain ⟨k, v⟩ := head
    rw [DistinctNames, List.map_cons, List.nodup_cons] at distinct
    rcases List.mem_cons.mp mem with same | later
    · cases same
      exact List.lookup_cons_self
    · have apart : (key == k) = false := beq_false_of_ne fun same =>
        distinct.1 (same ▸ List.mem_map_of_mem (f := (·.1)) later)
      rw [List.lookup_cons, apart]
      exact ih distinct.2 later

theorem mem_of_lookup (found : members.lookup key = some value) : (key, value) ∈ members := by
  obtain ⟨before, after, rfl, -⟩ := List.lookup_eq_some_iff.mp found
  exact List.mem_append_right _ List.mem_cons_self

/-- Sorting members with distinct names does not change what is found by a name. -/
theorem lookup_sortMembers (distinct : DistinctNames members) (key : String) :
    (sortMembers members).lookup key = members.lookup key := by
  have found : ∀ value, (sortMembers members).lookup key = some value
      ↔ members.lookup key = some value := fun value =>
    ⟨fun h => lookup_of_mem distinct (mem_of_mem_sortMembers (mem_of_lookup h)),
      fun h => lookup_of_mem (inOrder_sortMembers members).distinctNames
        ((sortMembers_perm distinct).mem_iff.mpr (mem_of_lookup h))⟩
  exact Option.ext found

theorem lookup_cons_ite (k : String) (v : Json) (rest : List (String × Json)) :
    List.lookup name ((k, v) :: rest) = if name = k then some v else rest.lookup name := by
  rw [List.lookup_cons]
  by_cases same : name = k <;> simp [beq_false_of_ne, same]

theorem lookup_insertMember : (insertMember key value members).lookup name =
    if name = key then some value else members.lookup name := by
  induction members with
  | nil => exact lookup_cons_ite key value []
  | cons head rest ih =>
    obtain ⟨k, v⟩ := head
    simp only [insertMember, apply_ite (List.lookup name), lookup_cons_ite, ih]
    split_ifs <;> simp_all

/-- The last member of a name is kept. -/
theorem lookup_sortMembers_reverse (members : List (String × Json)) (name : String) :
    (sortMembers members).lookup name = members.reverse.lookup name := by
  induction members using List.reverseRecOn with
  | nil => rfl
  | append_singleton members last ih =>
    rw [sortMembers_concat, lookup_insertMember, ih, List.reverse_concat, lookup_cons_ite]

/-- Members in order are told by what is found among them. -/
theorem InOrder.ext_lookup (inOrder : InOrder members) (inOrder' : InOrder members')
    (same : ∀ name, members.lookup name = members'.lookup name) : members = members' := by
  have mem_iff : ∀ {members}, InOrder members → ∀ entry : String × Json,
      entry ∈ members ↔ members.lookup entry.1 = some entry.2 := fun inOrder _ =>
    ⟨lookup_of_mem inOrder.distinctNames, mem_of_lookup⟩
  have nodup : ∀ {members}, InOrder members → members.Nodup :=
    List.Pairwise.imp fun before same => String.ne_of_lt before (congrArg Prod.fst same)
  have perm : members.Perm members' :=
    (List.perm_ext_iff_of_nodup (nodup inOrder) (nodup inOrder')).mpr fun entry => by
      rw [mem_iff inOrder, mem_iff inOrder', same]
  exact perm.eq_of_pairwise
    (fun a b _ _ before after => absurd (String.lt_trans before after) (String.lt_irrefl _))
    inOrder inOrder'

end LanguageClient.Json
