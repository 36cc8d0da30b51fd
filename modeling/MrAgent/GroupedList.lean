import Mathlib

namespace GroupedList

/-!
# Lists grouped by a key

The keys of a list, each named once in the order of its first element, and
how the elements are counted group by group.
-/

variable {α Key : Type} [BEq Key] [LawfulBEq Key]

theorem nodup_eraseDups (keys : List Key) : keys.eraseDups.Nodup := by
  induction length : keys.length using Nat.strongRecOn generalizing keys with
  | ind size ih =>
      cases keys with
      | nil =>
          exact List.nodup_nil
      | cons head tail =>
          rw [List.eraseDups_cons, List.nodup_cons]
          have shorter : (tail.filter fun key => !key == head).length < size := by
            have bound := List.length_filter_le (fun key => !key == head) tail
            simp only [List.length_cons] at length
            omega
          refine ⟨?_, ih _ shorter _ rfl⟩
          intro member
          have kept := (List.mem_filter.mp (List.mem_eraseDups.mp member)).2
          simp at kept

theorem eraseDups_eq_self {keys : List Key} (distinct : keys.Nodup) : keys.eraseDups = keys := by
  induction keys with
  | nil =>
      rfl
  | cons head tail ih =>
      obtain ⟨absent, rest⟩ := List.nodup_cons.mp distinct
      have kept : (tail.filter fun key => !key == head) = tail := by
        rw [List.filter_eq_self]
        intro key member
        have different : key ≠ head := by
          rintro rfl
          exact absent member
        simpa using different
      rw [List.eraseDups_cons, kept, ih rest]

theorem length_eraseDups_le_of_subset
    {fewer more : List Key}
    (among : fewer ⊆ more) :
    fewer.eraseDups.length ≤ more.eraseDups.length := by
  apply List.Subperm.length_le
  apply (nodup_eraseDups fewer).subperm
  intro key member
  exact List.mem_eraseDups.mpr (among (List.mem_eraseDups.mp member))

variable {keys : List Key}

theorem sum_map_ite_mem
    {name : Key}
    (distinct : keys.Nodup)
    (member : name ∈ keys) :
    (keys.map fun other => if name == other then 1 else 0).sum = 1 := by
  induction keys with
  | nil =>
      cases member
  | cons head tail ih =>
      obtain ⟨absent, rest⟩ := List.nodup_cons.mp distinct
      rcases List.mem_cons.mp member with rfl | later
      · have none : ∀ other ∈ tail, (if name == other then 1 else 0) = 0 := by
          intro other inTail
          have different : name ≠ other := by
            rintro rfl
            exact absent inTail
          simp [different]
        rw [List.map_cons, List.sum_cons, List.map_congr_left none]
        simp
      · have different : name ≠ head := by
          rintro rfl
          exact absent later
        rw [List.map_cons, List.sum_cons, ih rest later]
        simp [different]

theorem sum_countP_key
    (key : α → Key)
    (select : α → Bool)
    (distinct : keys.Nodup)
    (items : List α)
    (covered : ∀ item ∈ items, key item ∈ keys) :
    (keys.map fun name => items.countP fun item => key item == name && select item).sum =
      items.countP select := by
  induction items with
  | nil =>
      simp
  | cons item rest ih =>
      have restSum := ih fun other member =>
        covered other (List.mem_cons_of_mem item member)
      have once : (keys.map fun name => if key item == name && select item then 1 else 0).sum =
          if select item then 1 else 0 := by
        cases selected : select item with
        | false =>
            simp
        | true =>
            simp only [Bool.and_true]
            exact sum_map_ite_mem distinct (covered item List.mem_cons_self)
      simp only [List.countP_cons, List.sum_map_add, restSum, once]

variable {items : List α}

/-- `setdefault(name, []).append(item)`. -/
def insertGroup
    (name : Key)
    (item : α)
    (groups : List (Key × List α)) : List (Key × List α) :=
  if groups.any (·.1 == name) then
    groups.map fun group => if group.1 == name then (group.1, group.2 ++ [item]) else group
  else groups ++ [(name, [item])]

/-- The groups of some items by their keys. -/
structure Grouped (key : α → Key) (items : List α) (groups : List (Key × List α)) : Prop where
  names : (groups.map Prod.fst).Nodup
  members : ∀ group ∈ groups, group.2 = items.filter fun item => key item == group.1
  covered : ∀ item ∈ items, ∃ group ∈ groups, group.1 = key item
  inhabited : ∀ group ∈ groups, ∃ item ∈ items, key item = group.1

omit [LawfulBEq Key] in
theorem grouped_nil (key : α → Key) : Grouped key [] [] where
  names := List.nodup_nil
  members := by simp
  covered := by simp
  inhabited := by simp

theorem Grouped.insert
    {key : α → Key}
    {groups : List (Key × List α)}
    (grouped : Grouped key items groups)
    (item : α) :
    Grouped key (items ++ [item]) (insertGroup (key item) item groups) := by
  by_cases known : groups.any (·.1 == key item) = true
  · have same : insertGroup (key item) item groups = groups.map fun group =>
        if group.1 == key item then (group.1, group.2 ++ [item]) else group :=
      if_pos known
    have firsts : (insertGroup (key item) item groups).map Prod.fst = groups.map Prod.fst := by
      rw [same, List.map_map]
      refine List.map_congr_left fun group _ => ?_
      by_cases own : (group.1 == key item) = true <;> simp [own]
    have named : ∀ name, name ∈ (insertGroup (key item) item groups).map Prod.fst ↔
        name ∈ groups.map Prod.fst := by
      simp [firsts]
    refine ⟨firsts ▸ grouped.names, ?_, ?_, ?_⟩
    · intro group member
      rw [same] at member
      obtain ⟨old, before, rfl⟩ := List.mem_map.mp member
      by_cases own : (old.1 == key item) = true
      · have equal : old.1 = key item := eq_of_beq own
        have content := grouped.members old before
        rw [equal] at content
        simpa [equal] using content
      · have other : (key item == old.1) = false :=
          beq_false_of_ne fun equal => own (beq_iff_eq.mpr equal.symm)
        simpa [own, other] using grouped.members old before
    · intro other member
      have inGroups : key other ∈ groups.map Prod.fst := by
        rcases List.mem_append.mp member with earlier | isLast
        · obtain ⟨group, before, name⟩ := grouped.covered other earlier
          exact List.mem_map.mpr ⟨group, before, name⟩
        · obtain ⟨group, before, name⟩ := List.any_eq_true.mp known
          rw [List.mem_singleton.mp isLast]
          exact List.mem_map.mpr ⟨group, before, eq_of_beq name⟩
      simpa using (named (key other)).mpr inGroups
    · intro group member
      have inGroups := (named group.1).mp (List.mem_map_of_mem member)
      obtain ⟨old, before, name⟩ := List.mem_map.mp inGroups
      obtain ⟨other, inItems, own⟩ := grouped.inhabited old before
      exact ⟨other, List.mem_append_left _ inItems, own.trans name⟩
  · have same : insertGroup (key item) item groups = groups ++ [(key item, [item])] :=
      if_neg known
    have fresh : ∀ group ∈ groups, group.1 ≠ key item := by
      intro group member equal
      exact known (List.any_eq_true.mpr ⟨group, member, beq_iff_eq.mpr equal⟩)
    have strange : ∀ other ∈ items, key other ≠ key item := by
      intro other member equal
      obtain ⟨group, before, name⟩ := grouped.covered other member
      exact fresh group before (name.trans equal)
    rw [same]
    refine ⟨?_, ?_, ?_, ?_⟩
    · rw [List.map_append, List.nodup_append]
      refine ⟨grouped.names, by simp, ?_⟩
      intro name member other isLast equal
      obtain ⟨group, before, rfl⟩ := List.mem_map.mp member
      simp only [List.map_cons, List.map_nil, List.mem_singleton] at isLast
      exact fresh group before (equal.trans isLast)
    · intro group member
      rcases List.mem_append.mp member with before | isLast
      · have other : (key item == group.1) = false :=
          beq_false_of_ne (fresh group before).symm
        simpa [other] using grouped.members group before
      · rw [List.mem_singleton.mp isLast]
        have none : items.filter (fun other => key other == key item) = [] := by
          refine List.filter_eq_nil_iff.mpr fun other inItems => ?_
          simpa using strange other inItems
        simp [none]
    · intro other member
      rcases List.mem_append.mp member with earlier | isLast
      · obtain ⟨group, before, name⟩ := grouped.covered other earlier
        exact ⟨group, List.mem_append_left _ before, name⟩
      · rw [List.mem_singleton.mp isLast]
        exact ⟨_, List.mem_append_right _ (List.mem_singleton_self _), rfl⟩
    · intro group member
      rcases List.mem_append.mp member with before | isLast
      · obtain ⟨other, inItems, own⟩ := grouped.inhabited group before
        exact ⟨other, List.mem_append_left _ inItems, own⟩
      · rw [List.mem_singleton.mp isLast]
        exact ⟨item, by simp, rfl⟩

/-- The groups of all items. -/
def groupOn (key : α → Key) (items : List α) : List (Key × List α) :=
  items.foldl (fun groups item => insertGroup (key item) item groups) []

theorem grouped_groupOn (key : α → Key) (items : List α) :
    Grouped key items (groupOn key items) := by
  induction items using List.reverseRecOn with
  | nil =>
      exact grouped_nil key
  | append_singleton items item ih =>
      rw [groupOn, List.foldl_append]
      exact ih.insert item

end GroupedList
