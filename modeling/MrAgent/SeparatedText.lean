import Mathlib

namespace SeparatedText

/-!
# Texts with separators

A separator that occurs in none of the parts can be found again in the whole.
-/

variable {α : Type} {separator : α}

variable {first second front back : List α}

theorem append_cons_inj
    (clean : separator ∉ first)
    (other : separator ∉ second) :
    first ++ separator :: front = second ++ separator :: back ↔
      first = second ∧ front = back := by
  induction first generalizing second with
  | nil =>
      cases second with
      | nil =>
          simp
      | cons head tail =>
          have distinct : separator ≠ head := fun same => other (same ▸ List.mem_cons_self)
          simp [distinct]
  | cons head tail ih =>
      have distinct : head ≠ separator := fun same => clean (same ▸ List.mem_cons_self)
      cases second with
      | nil =>
          simp [distinct]
      | cons next rest =>
          have split : tail ++ separator :: front = rest ++ separator :: back ↔
              tail = rest ∧ front = back :=
            ih (fun member => clean (List.mem_cons_of_mem _ member))
              (fun member => other (List.mem_cons_of_mem _ member))
          simp [split, and_assoc]

theorem append_cons_inj_right
    (clean : separator ∉ front)
    (other : separator ∉ back) :
    first ++ separator :: front = second ++ separator :: back ↔
      first = second ∧ front = back := by
  have reversed :
      front.reverse ++ separator :: first.reverse = back.reverse ++ separator :: second.reverse ↔
        front.reverse = back.reverse ∧ first.reverse = second.reverse :=
    append_cons_inj (by simpa using clean) (by simpa using other)
  rw [← List.reverse_inj]
  simp only [List.reverse_append, List.reverse_cons, List.append_assoc, List.singleton_append]
  rw [reversed, List.reverse_inj, List.reverse_inj, and_comm]

/-- Parts with a separator before each. -/
def joined (separator : α) (parts : List (List α)) : List α :=
  parts.flatMap (separator :: ·)

theorem joined_inj
    {parts others : List (List α)}
    (clean : ∀ part ∈ parts, separator ∉ part)
    (otherClean : ∀ part ∈ others, separator ∉ part) :
    joined separator parts = joined separator others ↔ parts = others := by
  constructor
  · intro same
    induction parts generalizing others with
    | nil =>
        cases others with
        | nil => rfl
        | cons part rest => simp [joined] at same
    | cons part rest ih =>
        cases others with
        | nil => simp [joined] at same
        | cons other more =>
            have cleanPart := clean part List.mem_cons_self
            have cleanOther := otherClean other List.mem_cons_self
            have cleanRest : ∀ part ∈ rest, separator ∉ part :=
              fun part member => clean part (List.mem_cons_of_mem _ member)
            have cleanMore : ∀ part ∈ more, separator ∉ part :=
              fun part member => otherClean part (List.mem_cons_of_mem _ member)
            have tails : part ++ joined separator rest = other ++ joined separator more := by
              simpa [joined] using same
            -- A part ends where the next separator stands.
            cases rest with
            | nil =>
                cases more with
                | nil =>
                    simpa [joined] using tails
                | cons next others =>
                    have member : separator ∈ part := by
                      have whole : part = other ++ joined separator (next :: others) := by
                        simpa [joined] using tails
                      rw [whole]
                      simp [joined]
                    exact absurd member cleanPart
            | cons next parts =>
                cases more with
                | nil =>
                    have member : separator ∈ other := by
                      have whole : part ++ joined separator (next :: parts) = other := by
                        simpa [joined] using tails
                      rw [← whole]
                      simp [joined]
                    exact absurd member cleanOther
                | cons follower others =>
                    have split : part = other ∧
                        next ++ joined separator parts = follower ++ joined separator others := by
                      rw [← append_cons_inj cleanPart cleanOther]
                      simpa [joined] using tails
                    rw [split.1, ih cleanRest cleanMore]
                    simpa [joined] using split.2
  · rintro rfl
    rfl

/-! ## Joined lines -/

theorem mem_intercalate
    {item : α}
    (apart : item ≠ separator)
    (lines : List (List α)) :
    item ∈ [separator].intercalate lines ↔ ∃ line ∈ lines, item ∈ line := by
  induction lines with
  | nil => simp
  | cons line rest ih =>
      cases rest with
      | nil => simp
      | cons next more =>
          rw [List.intercalate_cons_cons, List.mem_append, List.mem_append, ih,
            List.exists_mem_cons_iff]
          simp [apart]

theorem length_intercalate (lines : List (List α)) :
    ([separator].intercalate lines).length = (lines.map (·.length + 1)).sum - 1 := by
  induction lines with
  | nil =>
      rfl
  | cons line rest ih =>
      cases rest with
      | nil =>
          simp [List.intercalate]
      | cons next rest =>
          have joined : [separator].intercalate (line :: next :: rest) =
              line ++ separator :: [separator].intercalate (next :: rest) := by
            simp [List.intercalate, List.intersperse]
          rw [joined, List.length_append, List.length_cons, ih]
          simp only [List.map_cons, List.sum_cons]
          omega

theorem eq_of_intercalate_eq
    {part lines : List (List α)}
    (sublist : part.Sublist lines)
    (filled : ∀ line ∈ lines.head?, line ≠ [])
    (same : [separator].intercalate part = [separator].intercalate lines) :
    part = lines := by
  obtain ⟨extra, shuffled⟩ := sublist.exists_perm_append
  have lengths := congrArg List.length same
  rw [length_intercalate, length_intercalate] at lengths
  have total : (lines.map (·.length + 1)).sum =
      (part.map (·.length + 1)).sum + (extra.map (·.length + 1)).sum := by
    rw [(shuffled.map _).sum_nat, List.map_append, List.sum_append]
  cases lines with
  | nil =>
      exact List.sublist_nil.mp sublist
  | cons line rest =>
      have first : 0 < line.length :=
        List.length_pos_of_ne_nil (filled line (by simp))
      simp only [List.map_cons, List.sum_cons] at lengths total
      cases extra with
      | nil =>
          exact sublist.eq_of_length (by simpa using shuffled.length_eq.symm)
      | cons other others =>
          simp only [List.map_cons, List.sum_cons] at total
          omega

theorem eq_of_flatMap_eq
    {β : Type}
    {block : β → List α}
    {part whole : List β}
    (sublist : part.Sublist whole)
    (filled : ∀ item, block item ≠ [])
    (same : part.flatMap block = whole.flatMap block) :
    part = whole := by
  obtain ⟨extra, shuffled⟩ := sublist.exists_perm_append
  have lengths := (shuffled.flatMap_right block).length_eq
  rw [← same, List.flatMap_append, List.length_append] at lengths
  cases extra with
  | nil =>
      exact sublist.eq_of_length (by simpa using shuffled.length_eq.symm)
  | cons item rest =>
      have positive : 0 < (block item).length :=
        List.length_pos_of_ne_nil (filled item)
      rw [List.flatMap_cons, List.length_append] at lengths
      omega

end SeparatedText
