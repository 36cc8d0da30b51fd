import MrAgent.ReportDiff

namespace MrAgent

/-!
# Where hunks are placed

`_apply_hunks` places a hunk by the start line of its old side. A hunk without
an old side names the line before it, and is placed one line early: that line is
carried behind the lines that the hunk adds.
-/

/-- A hunk behind some unchanged lines, for lines of any type. -/
structure Placement (Line : Type*) where
  gap : List Line
  replaces : Bool
  added : List Line

namespace Placement

variable {Line : Type*}

/-- The lines that are written, with the line that is carried. -/
def placed :
    Option Line → List (Placement Line) → List Line → Option (List Line)
  | carried, [], tail => some (carried.toList ++ tail)
  | carried, hunk :: rest, tail =>
    let pending := carried.toList ++ hunk.gap
    if hunk.replaces then (placed none rest tail).map fun later => pending ++ (hunk.added ++ later)
    else
      pending.getLast?.bind fun last =>
        (placed (some last) rest tail).map fun later => pending.dropLast ++ (hunk.added ++ later)

/-- The lines of the new version. -/
def expected (hunks : List (Placement Line)) (tail : List Line) : List Line :=
  hunks.flatMap (fun hunk => hunk.gap ++ hunk.added) ++ tail

/-- A hunk without an old side adds only copies of the line before it. -/
def OnlyCopies : Option Line → List (Placement Line) → Prop
  | _, [] => True
  | carried, hunk :: rest =>
    if hunk.replaces then OnlyCopies none rest
    else
      ∃ last, (carried.toList ++ hunk.gap).getLast? = some last ∧
        (∀ line ∈ hunk.added, line = last) ∧ OnlyCopies (some last) rest

variable {carried : Option Line} {tail : List Line}

theorem expected_cons
    (hunk : Placement Line)
    (rest : List (Placement Line)) :
    expected (hunk :: rest) tail = hunk.gap ++ (hunk.added ++ expected rest tail) := by
  rw [expected, List.flatMap_cons, List.append_assoc, List.append_assoc]
  rfl

theorem length_placed
    {hunks : List (Placement Line)}
    {written : List Line}
    (isWritten : placed carried hunks tail = some written) :
    written.length = (carried.toList ++ expected hunks tail).length := by
  induction hunks generalizing carried written with
  | nil =>
      cases isWritten
      rfl
  | cons hunk rest ih =>
      rw [placed] at isWritten
      simp only [expected_cons, List.length_append]
      split at isWritten
      · obtain ⟨later, isLater, rfl⟩ := Option.map_eq_some_iff.mp isWritten
        have size := ih isLater
        simp only [Option.toList_none, List.nil_append] at size
        simp only [List.length_append, size]
        omega
      · obtain ⟨last, isLast, isWritten⟩ := Option.bind_eq_some_iff.mp isWritten
        obtain ⟨later, isLater, rfl⟩ := Option.map_eq_some_iff.mp isWritten
        have size := ih isLater
        have front := congrArg List.length (List.dropLast_append_getLast? last isLast)
        simp only [List.length_append, Option.toList_some, List.length_singleton] at size front ⊢
        omega

theorem rotated_iff
    (last : Line)
    (added later rest : List Line) :
    added ++ later = last :: (added ++ rest) ↔
      (∀ line ∈ added, line = last) ∧ later = last :: rest := by
  induction added with
  | nil => simp
  | cons line added ih =>
      constructor
      · intro same
        injection same with first others
        rw [first] at others ⊢
        obtain ⟨copies, isLater⟩ := ih.mp others
        exact ⟨List.forall_mem_cons.mpr ⟨rfl, copies⟩, isLater⟩
      · rintro ⟨copies, isLater⟩
        obtain ⟨first, copies⟩ := List.forall_mem_cons.mp copies
        rw [first, List.cons_append, ih.mpr ⟨copies, isLater⟩]
        rfl

theorem placed_eq_iff
    (hunks : List (Placement Line))
    (carried : Option Line) :
    placed carried hunks tail = some (carried.toList ++ expected hunks tail) ↔
      OnlyCopies carried hunks := by
  induction hunks generalizing carried with
  | nil => exact iff_of_true rfl trivial
  | cons hunk rest ih =>
      rw [placed, OnlyCopies, expected_cons, ← List.append_assoc]
      by_cases replaces : hunk.replaces = true
      · rw [if_pos replaces, if_pos replaces, ← ih]
        simp
      · rw [if_neg replaces, if_neg replaces]
        cases isLast : (carried.toList ++ hunk.gap).getLast? with
        | none => simp
        | some last =>
            have front := List.dropLast_append_getLast? last isLast
            rw [Option.bind_some]
            cases isLater : placed (some last) rest tail with
            | none =>
                have not : ¬ OnlyCopies (some last) rest := by
                  rw [← ih, isLater]
                  exact fun same => by cases same
                simp [not]
            | some later =>
                have further := ih (some last)
                rw [isLater] at further
                have rotated := rotated_iff last hunk.added later (expected rest tail)
                have written : (carried.toList ++ hunk.gap).dropLast ++ (hunk.added ++ later) =
                      (carried.toList ++ hunk.gap) ++ (hunk.added ++ expected rest tail) ↔
                    hunk.added ++ later = last :: (hunk.added ++ expected rest tail) := by
                  conv_lhs => rw [← front]
                  simp
                simp only [Option.map_some, Option.some.injEq, written, rotated]
                simp only [Option.some.injEq, Option.toList_some, List.singleton_append] at further
                rw [further]
                simp

end Placement

end MrAgent
