import Mathlib

namespace GreedyGroups

/-!
# Groups filled one after the other

Items are put into the open group as long as it fits. A group that no longer
fits with the next item is closed, and the item opens a new one. The groups are
the items in order, each group has grown within the bound, and it was closed
because of the first item of the next.
-/

variable {α : Type} (fits : List α → Bool)

/-- The groups behind an open group. -/
def groupFrom : List α → List α → List (List α)
  | current, [] => if current.isEmpty then [] else [current]
  | current, item :: rest =>
    if !current.isEmpty && !fits (current ++ [item]) then current :: groupFrom [item] rest
    else groupFrom (current ++ [item]) rest

/-- The groups of some items. -/
def groups (items : List α) : List (List α) :=
  groupFrom fits [] items

variable {fits}

variable {item : α} {current : List α}

theorem groupFrom_close
    (filled : current ≠ [])
    (full : fits (current ++ [item]) = false)
    (rest : List α) :
    groupFrom fits current (item :: rest) = current :: groupFrom fits [item] rest := by
  rw [groupFrom, full]
  simp [filled]

theorem groupFrom_extend
    (room : current = [] ∨ fits (current ++ [item]) = true)
    (rest : List α) :
    groupFrom fits current (item :: rest) = groupFrom fits (current ++ [item]) rest := by
  rcases room with empty | fitting
  · rw [groupFrom, empty]
    rfl
  · rw [groupFrom, fitting]
    simp

@[simp]
theorem flatten_groupFrom
    (current items : List α) :
    (groupFrom fits current items).flatten = current ++ items := by
  induction items generalizing current with
  | nil =>
      cases current with
      | nil => rfl
      | cons head tail => simp [groupFrom]
  | cons item rest ih =>
      by_cases full : current ≠ [] ∧ fits (current ++ [item]) = false
      · rw [groupFrom_close full.1 full.2, List.flatten_cons, ih]
        rfl
      · have room : current = [] ∨ fits (current ++ [item]) = true := by
          by_contra none
          rw [not_or, Bool.not_eq_true] at none
          exact full none
        rw [groupFrom_extend room, ih, List.append_assoc]
        rfl

@[simp]
theorem flatten_groups
    (items : List α) :
    (groups fits items).flatten = items :=
  flatten_groupFrom [] items

theorem groupFrom_cases
    {motive : List α → List α → List (List α) → Prop}
    (empty : motive [] [] [])
    (last : ∀ current, current ≠ [] → motive current [] [current])
    (close : ∀ current item rest, current ≠ [] → fits (current ++ [item]) = false →
      motive [item] rest (groupFrom fits [item] rest) →
      motive current (item :: rest) (current :: groupFrom fits [item] rest))
    (extend : ∀ current item rest, current = [] ∨ fits (current ++ [item]) = true →
      motive (current ++ [item]) rest (groupFrom fits (current ++ [item]) rest) →
      motive current (item :: rest) (groupFrom fits (current ++ [item]) rest))
    (current items : List α) :
    motive current items (groupFrom fits current items) := by
  induction items generalizing current with
  | nil =>
      cases current with
      | nil => exact empty
      | cons head tail => exact last (head :: tail) (List.cons_ne_nil _ _)
  | cons item rest ih =>
      by_cases full : current ≠ [] ∧ fits (current ++ [item]) = false
      · rw [groupFrom_close full.1 full.2]
        exact close current item rest full.1 full.2 (ih [item])
      · have room : current = [] ∨ fits (current ++ [item]) = true := by
          by_contra none
          rw [not_or, Bool.not_eq_true] at none
          exact full none
        rw [groupFrom_extend room]
        exact extend current item rest room (ih (current ++ [item]))

theorem ne_nil_of_mem_groupFrom
    {current items group : List α}
    (member : group ∈ groupFrom fits current items) :
    group ≠ [] := by
  have all : ∀ group ∈ groupFrom fits current items, group ≠ [] := by
    refine groupFrom_cases (motive := fun _ _ found => ∀ group ∈ found, group ≠ [])
      ?_ ?_ ?_ ?_ current items
    · exact fun _ none => absurd none List.not_mem_nil
    · intro current filled group only
      rw [List.mem_singleton.mp only]
      exact filled
    · intro current item rest filled full later group member
      rcases List.mem_cons.mp member with here | there
      · rw [here]
        exact filled
      · exact later group there
    · exact fun _ _ _ _ later => later
  exact all group member

theorem groupFrom_eq_cons
    (filled : current ≠ [])
    (items : List α) :
    ∃ more later,
      groupFrom fits current items = (current ++ more) :: later ∧
        items = more ++ later.flatten := by
  induction items generalizing current with
  | nil =>
      refine ⟨[], [], ?_, rfl⟩
      rw [groupFrom, List.append_nil]
      simp [filled]
  | cons item rest ih =>
      by_cases full : fits (current ++ [item]) = false
      · refine ⟨[], groupFrom fits [item] rest, ?_, ?_⟩
        · rw [groupFrom_close filled full, List.append_nil]
        · rw [flatten_groupFrom]
          rfl
      · rw [Bool.not_eq_false] at full
        obtain ⟨more, later, first, split⟩ :=
          @ih (current ++ [item]) (List.append_ne_nil_of_right_ne_nil _
            (List.cons_ne_nil _ _))
        refine ⟨item :: more, later, ?_, ?_⟩
        · rw [groupFrom_extend (Or.inr full), first, List.append_assoc]
          rfl
        · rw [split]
          rfl

/-- A group that has grown item by item within the bound; the first item is not asked. -/
def Grown (fits : List α → Bool) (group : List α) : Prop :=
  ∀ start item, start ≠ [] → start ++ [item] <+: group → fits (start ++ [item]) = true

theorem grown_singleton
    (item : α) :
    Grown fits [item] := by
  intro start other filled within
  have bound := within.length_le
  rw [List.length_append, List.length_singleton, List.length_singleton] at bound
  have none : start.length = 0 := by omega
  exact absurd (List.length_eq_zero_iff.mp none) filled

theorem Grown.append
    (grown : Grown fits current)
    (room : current = [] ∨ fits (current ++ [item]) = true) :
    Grown fits (current ++ [item]) := by
  intro start other filled within
  rcases List.prefix_concat_iff.mp within with whole | earlier
  · have same := List.append_inj' whole rfl
    rcases room with empty | fitting
    · exact absurd (same.1.trans empty) filled
    · rw [whole]
      exact fitting
  · exact grown start other filled earlier

theorem grown_of_mem_groupFrom
    {current items group : List α}
    (grown : Grown fits current)
    (member : group ∈ groupFrom fits current items) :
    Grown fits group := by
  have all : Grown fits current → ∀ group ∈ groupFrom fits current items, Grown fits group := by
    refine groupFrom_cases
      (motive := fun current _ found => Grown fits current → ∀ group ∈ found, Grown fits group)
      ?_ ?_ ?_ ?_ current items
    · exact fun _ _ none => absurd none List.not_mem_nil
    · intro current filled grown group only
      rw [List.mem_singleton.mp only]
      exact grown
    · intro current item rest filled full later grown group member
      rcases List.mem_cons.mp member with here | there
      · rw [here]
        exact grown
      · exact later (grown_singleton item) group there
    · intro current item rest room later grown
      exact later (grown.append room)
  exact all grown group member

theorem grown_of_mem_groups
    {items group : List α}
    (member : group ∈ groups fits items) :
    Grown fits group := by
  refine grown_of_mem_groupFrom ?_ member
  intro start item _ impossible
  have bound := impossible.length_le
  rw [List.length_append] at bound
  exact absurd bound (by simp)

theorem isChain_groupFrom
    (current items : List α) :
    List.IsChain (fun group next => ∃ item, next.head? = some item ∧
      fits (group ++ [item]) = false) (groupFrom fits current items) := by
  refine groupFrom_cases
    (motive := fun _ _ found => List.IsChain (fun group next => ∃ item,
      next.head? = some item ∧ fits (group ++ [item]) = false) found)
    ?_ ?_ ?_ ?_ current items
  · exact List.isChain_nil
  · exact fun current _ => List.isChain_singleton current
  · intro current item rest filled full later
    obtain ⟨more, others, first, _⟩ : ∃ more later,
        groupFrom fits [item] rest = ([item] ++ more) :: later ∧ rest = more ++ later.flatten :=
      groupFrom_eq_cons (List.cons_ne_nil item []) rest
    rw [first] at later ⊢
    exact List.isChain_cons_cons.mpr ⟨⟨item, rfl, full⟩, later⟩
  · exact fun _ _ _ _ later => later

variable (fits) in
theorem isChain_groups
    (items : List α) :
    List.IsChain (fun group next => ∃ item, next.head? = some item ∧
      fits (group ++ [item]) = false) (groups fits items) :=
  isChain_groupFrom [] items

theorem groupFrom_append
    {current items : List α}
    (room : ∀ start item, start ++ [item] <+: items →
      current ++ start = [] ∨ fits (current ++ start ++ [item]) = true)
    (rest : List α) :
    groupFrom fits current (items ++ rest) = groupFrom fits (current ++ items) rest := by
  induction items generalizing current with
  | nil =>
      rw [List.append_nil]
      rfl
  | cons item more ih =>
      have first : current = [] ∨ fits (current ++ [item]) = true := by
        have here := room [] item (by simp)
        rw [List.append_nil] at here
        exact here
      have further := @ih (current ++ [item]) fun start other within => by
        have later := room (item :: start) other
          (by rw [List.cons_append]; exact List.cons_prefix_cons.mpr ⟨rfl, within⟩)
        rw [List.append_assoc current, List.singleton_append]
        exact later
      rw [List.cons_append, groupFrom_extend first, further, List.append_assoc]
      rfl

end GreedyGroups
