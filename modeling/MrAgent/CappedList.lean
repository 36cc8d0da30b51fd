import Mathlib
import MrAgent.GroupedList

namespace CappedList

/-!
# Capped lists of distinct values

A loop that cleans the values it reads, leaves out those that are empty or
already kept and stops as soon as enough are kept.
-/

variable {α β : Type} [DecidableEq β] (clean : α → Option β) (count : Nat)

/-- A new value goes to the end. -/
def push (kept : List β) (value : α) : List β :=
  match clean value with
  | some text => if text ∈ kept then kept else kept ++ [text]
  | none => kept

/-- The loop; how many are kept is checked after each value. -/
def gather (kept : List β) : List α → List β
  | [] => kept
  | value :: rest =>
    if count ≤ (push clean kept value).length then push clean kept value
    else gather (push clean kept value) rest

variable {clean count} {kept : List β}

variable (clean) in
theorem push_cases (kept : List β) (value : α) :
    (push clean kept value = kept ∧ ∀ text, clean value = some text → text ∈ kept) ∨
      ∃ text, clean value = some text ∧ text ∉ kept ∧ push clean kept value = kept ++ [text] := by
  unfold push
  cases clean value with
  | none =>
      exact Or.inl ⟨rfl, nofun⟩
  | some text =>
      by_cases present : text ∈ kept
      · refine Or.inl ⟨by simp [present], ?_⟩
        rintro other ⟨⟩
        exact present
      · exact Or.inr ⟨text, rfl, present, by simp [present]⟩

theorem prefix_push (kept : List β) (value : α) : kept <+: push clean kept value := by
  rcases push_cases clean kept value with ⟨same, _⟩ | ⟨text, _, _, longer⟩
  · rw [same]
  · rw [longer]
    exact List.prefix_append kept [text]

theorem prefix_gather (kept : List β) (values : List α) : kept <+: gather clean count kept values := by
  induction values generalizing kept with
  | nil =>
      exact List.prefix_rfl
  | cons value rest ih =>
      rw [gather]
      split
      · exact prefix_push kept value
      · exact (prefix_push kept value).trans (ih _)

theorem nodup_push (distinct : kept.Nodup) (value : α) : (push clean kept value).Nodup := by
  rcases push_cases clean kept value with ⟨same, _⟩ | ⟨text, _, absent, longer⟩
  · rw [same]
    exact distinct
  · rw [longer, List.nodup_append]
    refine ⟨distinct, List.nodup_singleton text, ?_⟩
    intro first member second single same
    rw [List.mem_singleton] at single
    exact absent (single ▸ same ▸ member)

theorem nodup_gather (distinct : kept.Nodup) (values : List α) :
    (gather clean count kept values).Nodup := by
  induction values generalizing kept with
  | nil =>
      exact distinct
  | cons value rest ih =>
      rw [gather]
      split
      · exact nodup_push distinct value
      · exact ih (nodup_push distinct value)

variable (clean) in
theorem length_push_le (kept : List β) (value : α) :
    (push clean kept value).length ≤ kept.length + 1 := by
  rcases push_cases clean kept value with ⟨same, _⟩ | ⟨text, _, _, longer⟩
  · rw [same]
    exact Nat.le_succ _
  · simp [longer]

theorem length_gather_le (room : kept.length < count) (values : List α) :
    (gather clean count kept values).length ≤ count := by
  induction values generalizing kept with
  | nil =>
      exact Nat.le_of_lt room
  | cons value rest ih =>
      rw [gather]
      split
      · exact Nat.le_trans (length_push_le clean kept value) room
      · rename_i less
        exact ih (Nat.lt_of_not_le less)

theorem full_or_all_gathered (room : kept.length < count) (values : List α) :
    (gather clean count kept values).length = count ∨
      ∀ value ∈ values, ∀ text, clean value = some text →
        text ∈ gather clean count kept values := by
  induction values generalizing kept with
  | nil =>
      exact Or.inr nofun
  | cons value rest ih =>
      rw [gather]
      split
      · rename_i full
        have bound := length_push_le clean kept value
        exact Or.inl (by omega)
      · rename_i less
        rcases ih (Nat.lt_of_not_le less) with full | all
        · exact Or.inl full
        · refine Or.inr ?_
          intro other member text cleaned
          rcases List.mem_cons.mp member with rfl | later
          · apply (prefix_gather _ rest).subset
            rcases push_cases clean kept other with ⟨same, old⟩ | ⟨new, found, _, longer⟩
            · rw [same]
              exact old text cleaned
            · rw [longer]
              cases found.symm.trans cleaned
              exact List.mem_append_right kept (List.mem_singleton_self text)
          · exact all other later text cleaned

variable {values : List α}

theorem gather_of_known
    (known : ∀ value ∈ values, ∀ text, clean value = some text → text ∈ kept) :
    gather clean count kept values = kept := by
  induction values with
  | nil =>
      rfl
  | cons value rest ih =>
      have same : push clean kept value = kept := by
        rcases push_cases clean kept value with ⟨same, _⟩ | ⟨text, cleaned, absent, _⟩
        · exact same
        · exact absurd (known value List.mem_cons_self text cleaned) absent
      rw [gather, same, ih fun other later =>
        known other (List.mem_cons_of_mem value later), ite_self]

theorem gather_append (room : kept.length < count) (values more : List α) :
    gather clean count kept (values ++ more) =
      if count ≤ (gather clean count kept values).length then gather clean count kept values
      else gather clean count (gather clean count kept values) more := by
  induction values generalizing kept with
  | nil =>
      rw [List.nil_append, gather, if_neg (Nat.not_le_of_lt room)]
  | cons value rest ih =>
      rw [List.cons_append, gather, gather]
      split
      · rfl
      · rename_i less
        exact ih (Nat.lt_of_not_le less)

variable {text : β}

theorem mem_gather_of_subset
    {few : List β}
    (distinct : few.Nodup)
    (fewer : few ⊆ kept)
    (member : text ∈ gather clean count kept values) :
    text ∈ kept ∨ text ∈ gather clean count few values := by
  induction values generalizing few kept with
  | nil =>
      exact Or.inl member
  | cons value rest ih =>
      have pushed : push clean few value ⊆ push clean kept value := by
        intro other inside
        rcases push_cases clean few value with ⟨same, _⟩ | ⟨new, cleaned, _, longer⟩
        · rw [same] at inside
          exact (prefix_push kept value).subset (fewer inside)
        · rw [longer] at inside
          rcases List.mem_append.mp inside with old | last
          · exact (prefix_push kept value).subset (fewer old)
          · rw [List.mem_singleton.mp last]
            rcases push_cases clean kept value with ⟨same, old⟩ | ⟨_, again, _, appended⟩
            · rw [same]
              exact old new cleaned
            · rw [appended]
              cases again.symm.trans cleaned
              exact List.mem_append_right _ (List.mem_singleton_self new)
      have distinctNext : (push clean few value).Nodup := nodup_push distinct value
      have start : ∀ other ∈ push clean kept value,
          other ∈ kept ∨ other ∈ push clean few value := by
        intro other inside
        rcases push_cases clean kept value with ⟨same, _⟩ | ⟨new, cleaned, _, longer⟩
        · exact Or.inl (same ▸ inside)
        · rw [longer] at inside
          rcases List.mem_append.mp inside with old | last
          · exact Or.inl old
          · refine Or.inr ?_
            rw [List.mem_singleton.mp last]
            rcases push_cases clean few value with ⟨same, old⟩ | ⟨_, again, _, appended⟩
            · rw [same]
              exact old new cleaned
            · rw [appended]
              cases again.symm.trans cleaned
              exact List.mem_append_right _ (List.mem_singleton_self new)
      have bound := (distinctNext.subperm pushed).length_le
      rw [gather] at member ⊢
      split at member
      · rcases start text member with old | new
        · exact Or.inl old
        · refine Or.inr ?_
          split
          · exact new
          · exact (prefix_gather _ rest).subset new
      · rename_i less
        rw [if_neg (by omega)]
        rcases ih distinctNext pushed member with early | late
        · rcases start text early with old | new
          · exact Or.inl old
          · exact Or.inr ((prefix_gather _ rest).subset new)
        · exact Or.inr late

variable (clean count) in
theorem length_gather_le_add (kept : List β) (values : List α) :
    (gather clean count kept values).length ≤ kept.length + values.length := by
  induction values generalizing kept with
  | nil =>
      exact Nat.le_refl _
  | cons value rest ih =>
      have bound := length_push_le clean kept value
      have more := ih (push clean kept value)
      rw [gather, List.length_cons]
      split <;> omega

/-! ## Lists that are read back as they are -/

section ReadBack

variable {clean : β → Option β}

variable {values : List β}

theorem gather_eq_append
    (fixed : ∀ value ∈ values, clean value = some value)
    (distinct : (kept ++ values).Nodup)
    (short : (kept ++ values).length ≤ count) :
    gather clean count kept values = kept ++ values := by
  induction values generalizing kept with
  | nil =>
      exact (List.append_nil kept).symm
  | cons value rest ih =>
      have absent : value ∉ kept := by
        intro member
        exact (List.nodup_append.mp distinct).2.2 value member value List.mem_cons_self rfl
      have pushed : push clean kept value = kept ++ [value] := by
        rw [push, fixed value List.mem_cons_self]
        exact if_neg absent
      have moved : kept ++ value :: rest = kept ++ [value] ++ rest := by
        simp
      rw [moved] at distinct short
      have whole := ih
        (fun later member => fixed later (List.mem_cons_of_mem value member)) distinct short
      rw [gather, pushed, moved]
      split
      · rename_i full
        have bound : (kept ++ [value] ++ rest).length ≤ (kept ++ [value]).length :=
          Nat.le_trans short full
        rw [List.length_append] at bound
        have none : rest = [] := List.eq_nil_of_length_eq_zero (by omega)
        rw [none, List.append_nil]
      · exact whole

theorem fixed_of_gather
    {values others : List β}
    (same : gather clean count kept values = kept ++ others)
    (equal : others.length = values.length) :
    values.map clean = others.map some := by
  induction values generalizing kept others with
  | nil =>
      rw [List.eq_nil_of_length_eq_zero equal]
      rfl
  | cons value rest ih =>
      rw [gather] at same
      have size := congrArg List.length same
      rw [List.length_append, equal, List.length_cons] at size
      rcases push_cases clean kept value with ⟨skipped, _⟩ | ⟨text, cleaned, _, longer⟩
      · -- A value that is left out leaves the result too short.
        rw [skipped] at size
        have bound := length_gather_le_add clean count kept rest
        split at size <;> omega
      · rw [longer] at same size
        cases others with
        | nil =>
            rw [List.length_nil, List.length_cons] at equal
            omega
        | cons first others =>
            rw [List.length_cons, List.length_cons] at equal
            have start : kept ++ [text] <+: kept ++ first :: others := by
              rw [← same]
              split
              · exact List.prefix_rfl
              · exact prefix_gather _ rest
            have matched : text = first :=
              (List.cons_prefix_cons.mp ((List.prefix_append_right_inj kept).mp start)).1
            have moved : kept ++ first :: others = kept ++ [first] ++ others := by
              simp
            rw [matched, moved] at same
            rw [List.map_cons, List.map_cons, cleaned, matched]
            split at same
            · have none : others = [] := by
                simpa using congrArg List.length same
              have done : rest = [] := by
                apply List.eq_nil_of_length_eq_zero
                rw [← Nat.succ.inj equal, none]
                rfl
              rw [none, done]
              rfl
            · rw [ih same (Nat.succ.inj equal)]

theorem gather_eq_self_iff (positive : 0 < count) {values : List β} :
    gather clean count [] values = values ↔
      (∀ value ∈ values, clean value = some value) ∧ values.Nodup ∧ values.length ≤ count := by
  constructor
  · intro same
    refine ⟨?_, ?_, ?_⟩
    · have whole : gather clean count [] values = [] ++ values := same
      have fixed := fixed_of_gather whole rfl
      intro value member
      exact List.map_inj_left.mp fixed value member
    · rw [← same]
      exact nodup_gather List.nodup_nil values
    · rw [← same]
      exact length_gather_le positive values
  · rintro ⟨fixed, distinct, short⟩
    have whole : gather clean count [] values = [] ++ values :=
      gather_eq_append fixed distinct short
    exact whole

theorem gather_eq_self_of_filter
    {select : β → Bool}
    (same : (gather clean count [] values).filter select = values) :
    gather clean count [] values = values := by
  have among : values.Sublist (gather clean count [] values) := by
    have selected := List.filter_sublist (p := select) (l := gather clean count [] values)
    rw [same] at selected
    exact selected
  have bound := length_gather_le_add clean count [] values
  rw [List.length_nil, Nat.zero_add] at bound
  exact (among.eq_of_length_le bound).symm

end ReadBack

/-! ## Values that are added to a capped list -/

/-- More values for a list that is read back first. -/
def absorb (clean : α → Option β) (count : Nat) (kept : List β) (values : List α) : List β :=
  if count ≤ kept.length then kept else gather clean count kept values

/-- The list is full, or it has all of the values. -/
def Settled (clean : α → Option β) (count : Nat) (values : List α) (kept : List β) : Prop :=
  count ≤ kept.length ∨ ∀ value ∈ values, ∀ text, clean value = some text → text ∈ kept

theorem prefix_absorb (kept : List β) (values : List α) : kept <+: absorb clean count kept values := by
  unfold absorb
  split
  · exact List.prefix_rfl
  · exact prefix_gather kept values

theorem settled_absorb (kept : List β) (values : List α) :
    Settled clean count values (absorb clean count kept values) := by
  unfold absorb
  split
  · rename_i full
    exact Or.inl full
  · rename_i less
    rcases full_or_all_gathered (Nat.lt_of_not_le less) values with full | all
    · exact Or.inl (Nat.le_of_eq full.symm)
    · exact Or.inr all

omit [DecidableEq β] in
theorem Settled.of_prefix
    {longer : List β}
    (settled : Settled clean count values kept)
    (start : kept <+: longer) :
    Settled clean count values longer := by
  rcases settled with full | all
  · exact Or.inl (Nat.le_trans full start.length_le)
  · exact Or.inr fun value member text cleaned => start.subset (all value member text cleaned)

theorem absorb_of_settled
    (settled : Settled clean count values kept) :
    absorb clean count kept values = kept := by
  unfold absorb
  split
  · rfl
  · rename_i less
    rcases settled with full | all
    · exact absurd full less
    · exact gather_of_known all

theorem gather_append_eq_absorb (positive : 0 < count) (values more : List α) :
    gather clean count [] (values ++ more) =
      absorb clean count (gather clean count [] values) more :=
  gather_append positive values more

theorem nodup_absorb (distinct : kept.Nodup) (values : List α) :
    (absorb clean count kept values).Nodup := by
  unfold absorb
  split
  · exact distinct
  · exact nodup_gather distinct values

theorem length_absorb_le (short : kept.length ≤ count) (values : List α) :
    (absorb clean count kept values).length ≤ count := by
  unfold absorb
  split
  · exact short
  · rename_i less
    exact length_gather_le (Nat.lt_of_not_le less) values

theorem mem_absorb
    (member : text ∈ absorb clean count kept values) :
    text ∈ kept ∨ text ∈ gather clean count [] values := by
  unfold absorb at member
  split at member
  · exact Or.inl member
  · exact mem_gather_of_subset List.nodup_nil (List.nil_subset kept) member

theorem gather_absorb
    {clean : β → Option β}
    {values : List β}
    (positive : 0 < count)
    (stored : gather clean count [] kept = kept)
    (settles : gather clean count [] (gather clean count [] values) =
      gather clean count [] values) :
    gather clean count [] (absorb clean count kept values) = absorb clean count kept values := by
  obtain ⟨clear, distinct, short⟩ := (gather_eq_self_iff positive).mp stored
  obtain ⟨cleaned, _, _⟩ := (gather_eq_self_iff positive).mp settles
  rw [gather_eq_self_iff positive]
  refine ⟨?_, nodup_absorb distinct values, length_absorb_le short values⟩
  intro text member
  rcases mem_absorb member with old | new
  · exact clear text old
  · exact cleaned text new

theorem settled_self
    {clean : β → Option β}
    (positive : 0 < count)
    (stored : gather clean count [] kept = kept) :
    Settled clean count kept kept := by
  obtain ⟨clear, _, _⟩ := (gather_eq_self_iff positive).mp stored
  refine Or.inr ?_
  intro value member text cleaned
  cases (clear value member).symm.trans cleaned
  exact member

theorem gather_eq_take_eraseDups (positive : 0 < count) (values : List α) :
    gather clean count [] values = ((values.filterMap clean).eraseDups).take count := by
  have general : ∀ kept : List β, kept.Nodup → kept.length < count →
      gather clean count kept values =
        ((kept ++ values.filterMap clean).eraseDups).take count := by
    induction values with
    | nil =>
        intro kept distinct room
        rw [List.filterMap_nil, List.append_nil, GroupedList.eraseDups_eq_self distinct,
          List.take_of_length_le (Nat.le_of_lt room)]
        rfl
    | cons value rest ih =>
        intro kept distinct room
        rw [gather, List.filterMap_cons]
        rcases push_cases clean kept value with ⟨same, old⟩ | ⟨new, cleaned, absent, longer⟩
        · rw [same, if_neg (Nat.not_le_of_lt room), ih kept distinct room]
          cases found : clean value with
          | none =>
              rfl
          | some text =>
              have present := old text found
              simp [List.eraseDups_append, List.removeAll, present]
        · rw [longer, cleaned]
          have distinctNext : (kept ++ [new]).Nodup := by
            rw [← longer]
            exact nodup_push distinct value
          have moved : kept ++ new :: rest.filterMap clean =
              kept ++ [new] ++ rest.filterMap clean := by
            simp
          simp only [moved]
          split
          · rename_i full
            have exact : (kept ++ [new]).length = count := by
              rw [List.length_append, List.length_singleton] at full ⊢
              omega
            rw [List.eraseDups_append, GroupedList.eraseDups_eq_self distinctNext, ← exact,
              List.take_left]
          · rename_i less
            exact ih _ distinctNext (Nat.lt_of_not_le less)
  exact general [] List.nodup_nil positive

end CappedList
