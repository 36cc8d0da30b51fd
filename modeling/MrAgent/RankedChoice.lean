import Mathlib

namespace RankedChoice

/-!
# Ranked choices

Items fall into groups and have a rank. A choice takes the best item of each
group, best group first, and stops when it is full.
-/

variable {α κ ρ : Type} [DecidableEq κ]

/-- The first item of each group that is not yet known. -/
def leaders (group : α → κ) : List κ → List α → List α
  | _, [] => []
  | known, item :: rest =>
    if group item ∈ known then leaders group known rest
    else item :: leaders group (known ++ [group item]) rest

section Leaders

variable {group : α → κ} {known : List κ} {items : List α}

theorem sublist_leaders
    (group : α → κ)
    (known : List κ)
    (items : List α) :
    (leaders group known items).Sublist items := by
  induction items generalizing known with
  | nil => exact List.Sublist.refl []
  | cons item rest ih =>
      rw [leaders]
      split
      · exact (ih known).cons item
      · exact (ih _).cons_cons item

variable {item : α}

theorem not_known_of_mem_leaders
    (member : item ∈ leaders group known items) :
    group item ∉ known := by
  induction items generalizing known with
  | nil => cases member
  | cons first rest ih =>
      rw [leaders] at member
      split at member
      · exact ih member
      · rename_i fresh
        rcases List.mem_cons.mp member with rfl | later
        · exact fresh
        · exact fun old => ih later (List.mem_append_left _ old)

theorem nodup_leaders
    (group : α → κ)
    (known : List κ)
    (items : List α) :
    ((leaders group known items).map group).Nodup := by
  induction items generalizing known with
  | nil => exact List.nodup_nil
  | cons first rest ih =>
      rw [leaders]
      split
      · exact ih known
      · rw [List.map_cons, List.nodup_cons]
        refine ⟨fun again => ?_, ih _⟩
        obtain ⟨item, member, same⟩ := List.mem_map.mp again
        refine not_known_of_mem_leaders member ?_
        rw [same]
        exact List.mem_append_right _ List.mem_cons_self

theorem exists_leader
    {before : α → α → Prop}
    (ordered : items.Pairwise before)
    (member : item ∈ items)
    (fresh : group item ∉ known) :
    ∃ leader ∈ leaders group known items,
      group leader = group item ∧ (leader = item ∨ before leader item) := by
  induction items generalizing known with
  | nil => cases member
  | cons first rest ih =>
      obtain ⟨ahead, ordered⟩ := List.pairwise_cons.mp ordered
      rw [leaders]
      by_cases old : group first ∈ known
      · rw [if_pos old]
        rcases List.mem_cons.mp member with rfl | later
        · exact absurd old fresh
        · exact ih ordered later fresh
      rw [if_neg old]
      by_cases same : group item = group first
      · refine ⟨first, List.mem_cons_self, same.symm, ?_⟩
        rcases List.mem_cons.mp member with rfl | later
        · exact Or.inl rfl
        · exact Or.inr (ahead item later)
      · rcases List.mem_cons.mp member with rfl | later
        · exact absurd rfl same
        · have still : group item ∉ known ++ [group first] := by
            simp [fresh, same]
          obtain ⟨leader, found, shares, early⟩ := ih ordered later still
          exact ⟨leader, List.mem_cons_of_mem _ found, shares, early⟩

end Leaders

section Choices

variable [LinearOrder ρ]

/-- Some items are the best choice of a limited number of groups. -/
structure Chosen (group : α → κ) (rank : α → ρ) (limit : Int) (items chosen : List α) : Prop where
  few : chosen.length ≤ limit
  distinct : (chosen.map group).Nodup
  offered : ∀ item ∈ chosen, item ∈ items
  best : ∀ item ∈ chosen, ∀ other ∈ items, group other = group item → rank item ≤ rank other
  /-- A group is left out for lack of room only, and all its items rank behind. -/
  ahead : ∀ other ∈ items, group other ∉ chosen.map group →
    chosen.length = limit ∧ ∀ item ∈ chosen, rank item ≤ rank other

theorem chosen_take_leaders
    {group : α → κ}
    {rank : α → ρ}
    {items sorted : List α}
    (same : sorted.Perm items)
    (ordered : sorted.Pairwise fun first second => rank first ≤ rank second)
    (limit : Nat) :
    Chosen group rank limit items ((leaders group [] sorted).take limit) := by
  have leadersOrdered := ordered.sublist (sublist_leaders group [] sorted)
  have leaderOf : ∀ other ∈ items, ∃ leader ∈ leaders group [] sorted,
      group leader = group other ∧ rank leader ≤ rank other := by
    intro other member
    obtain ⟨leader, found, shares, early⟩ := exists_leader ordered (same.mem_iff.mpr member)
      (List.not_mem_nil (a := group other))
    refine ⟨leader, found, shares, ?_⟩
    rcases early with rfl | early
    · exact le_rfl
    · exact early
  refine ⟨?_, ?_, ?_, ?_, ?_⟩
  · exact_mod_cast List.length_take_le _ _
  · exact (nodup_leaders group [] sorted).sublist ((List.take_sublist _ _).map group)
  · intro item member
    exact same.subset ((sublist_leaders group [] sorted).subset (List.mem_of_mem_take member))
  · intro item member other offered shares
    obtain ⟨leader, found, ofOther, early⟩ := leaderOf other offered
    have one : leader = item := List.inj_on_of_nodup_map (nodup_leaders group [] sorted) found
      (List.mem_of_mem_take member) (ofOther.trans shares)
    rw [← one]
    exact early
  · intro other offered leftOut
    obtain ⟨leader, found, ofOther, early⟩ := leaderOf other offered
    have split := List.take_append_drop limit (leaders group [] sorted)
    have dropped : leader ∈ (leaders group [] sorted).drop limit := by
      rw [← split] at found
      refine (List.mem_append.mp found).resolve_left fun taken => leftOut ?_
      rw [← ofOther]
      exact List.mem_map_of_mem taken
    have full : limit < (leaders group [] sorted).length := by
      by_contra short
      rw [List.drop_eq_nil_of_le (Nat.le_of_not_lt short)] at dropped
      cases dropped
    refine ⟨?_, fun item taken => ?_⟩
    · rw [List.length_take, Nat.min_eq_left (Nat.le_of_lt full)]
    · rw [← split, List.pairwise_append] at leadersOrdered
      exact (leadersOrdered.2.2 item taken leader dropped).trans early

end Choices

end RankedChoice
