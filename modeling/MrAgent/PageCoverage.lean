import MrAgent.NativeRepairState

namespace MrAgent

/-!
# Pages of a Diff

The reducer keeps the line ranges of the inspected pages as merged intervals.
The merged intervals hold the same lines as the pages, and no next line is left
exactly when the pages cover the whole Diff.
-/

/-- A line lies in one of the intervals. -/
def CoversLine (intervals : List (Int × Int)) (line : Int) : Prop :=
  ∃ interval ∈ intervals, interval.1 ≤ line ∧ line ≤ interval.2

/-- An interval within the lines of a Diff. -/
def PageRange (totalLines : Int) (interval : Int × Int) : Prop :=
  1 ≤ interval.1 ∧ interval.1 ≤ interval.2 ∧ interval.2 ≤ totalLines

/-- Intervals in the order of their first lines. -/
def ByStart (intervals : List (Int × Int)) : Prop :=
  intervals.Pairwise fun first second => first.1 ≤ second.1

variable {line : Int}

theorem coversLine_cons
    {interval : Int × Int}
    {rest : List (Int × Int)} :
    CoversLine (interval :: rest) line ↔
      (interval.1 ≤ line ∧ line ≤ interval.2) ∨ CoversLine rest line := by
  simp [CoversLine]

theorem coversLine_append
    {first second : List (Int × Int)} :
    CoversLine (first ++ second) line ↔ CoversLine first line ∨ CoversLine second line := by
  simp [CoversLine, or_and_right, exists_or]

variable {intervals : List (Int × Int)}

theorem coversLine_reverse :
    CoversLine intervals.reverse line ↔ CoversLine intervals line := by
  simp [CoversLine]

/-! ## Merging -/

/-- What holds between the merged intervals, the last one first, and those still to merge. -/
structure MergedBefore
    (totalLines : Int)
    (merged rest : List (Int × Int)) : Prop where
  ranges : ∀ interval ∈ merged ++ rest, PageRange totalLines interval
  mergedOrdered : merged.Pairwise fun later earlier => earlier.1 ≤ later.1
  before : ∀ interval ∈ merged, ∀ next ∈ rest, interval.1 ≤ next.1
  restOrdered : ByStart rest

namespace MergedBefore

variable {totalLines : Int} {merged rest : List (Int × Int)} {last interval : Int × Int}

theorem push
    (before : MergedBefore totalLines merged (interval :: rest)) :
    MergedBefore totalLines (interval :: merged) rest where
  ranges := by
    intro other member
    exact before.ranges other (by simpa [or_left_comm] using member)
  mergedOrdered :=
    List.pairwise_cons.mpr
      ⟨fun other member => before.before other member interval List.mem_cons_self,
        before.mergedOrdered⟩
  before := by
    intro other member next later
    rcases List.mem_cons.mp member with rfl | inMerged
    · exact List.rel_of_pairwise_cons before.restOrdered later
    · exact before.before other inMerged next (List.mem_cons_of_mem _ later)
  restOrdered := before.restOrdered.of_cons

theorem extend
    (before : MergedBefore totalLines (last :: merged) (interval :: rest)) :
    MergedBefore totalLines ((last.1, max last.2 interval.2) :: merged) rest where
  ranges := by
    intro other member
    have lastRange := before.ranges last (by simp)
    have nextRange := before.ranges interval (by simp)
    rcases List.mem_append.mp member with inMerged | inRest
    · rcases List.mem_cons.mp inMerged with rfl | inMerged
      · unfold PageRange at *
        omega
      · exact before.ranges other (by simp [inMerged])
    · exact before.ranges other (by simp [inRest])
  mergedOrdered :=
    List.pairwise_cons.mpr
      ⟨fun other member => List.rel_of_pairwise_cons before.mergedOrdered member,
        before.mergedOrdered.of_cons⟩
  before := by
    intro other member next later
    rcases List.mem_cons.mp member with rfl | inMerged
    · exact before.before last List.mem_cons_self next (List.mem_cons_of_mem _ later)
    · exact before.before other (List.mem_cons_of_mem _ inMerged) next
        (List.mem_cons_of_mem _ later)
  restOrdered := before.restOrdered.of_cons

end MergedBefore

variable {totalLines : Int}

theorem mergeInto_spec
    {merged rest : List (Int × Int)}
    (before : MergedBefore totalLines merged rest) :
    (∀ interval ∈ mergeInto merged rest, PageRange totalLines interval) ∧
      ByStart (mergeInto merged rest) ∧
      ∀ line, CoversLine (mergeInto merged rest) line ↔
        CoversLine merged line ∨ CoversLine rest line := by
  induction rest generalizing merged with
  | nil =>
      rw [mergeInto]
      refine ⟨fun interval member => before.ranges interval (by simpa using member),
        List.pairwise_reverse.mpr before.mergedOrdered, fun line => ?_⟩
      rw [coversLine_reverse]
      simp [CoversLine]
  | cons interval rest ih =>
      cases merged with
      | nil =>
          obtain ⟨ranges, ordered, covers⟩ := ih before.push
          rw [mergeInto]
          refine ⟨ranges, ordered, fun line => ?_⟩
          rw [covers, coversLine_cons, coversLine_cons]
          simp [CoversLine]
      | cons last merged =>
          rw [mergeInto]
          split
          · obtain ⟨ranges, ordered, covers⟩ := ih before.push
            refine ⟨ranges, ordered, fun line => ?_⟩
            rw [covers, coversLine_cons, coversLine_cons, coversLine_cons]
            simp only [or_assoc, or_left_comm]
          · obtain ⟨ranges, ordered, covers⟩ := ih before.extend
            refine ⟨ranges, ordered, fun line => ?_⟩
            have lastRange := before.ranges last (by simp)
            have nextRange := before.ranges interval (by simp)
            have starts := before.before last List.mem_cons_self interval List.mem_cons_self
            -- The two ranges overlap or are adjacent, so no line is between them.
            have joined : (last.1 ≤ line ∧ line ≤ max last.2 interval.2) ↔
                (last.1 ≤ line ∧ line ≤ last.2) ∨ (interval.1 ≤ line ∧ line ≤ interval.2) := by
              unfold PageRange at *
              omega
            rw [covers, coversLine_cons, coversLine_cons, coversLine_cons, joined]
            simp only [or_assoc, or_left_comm]

instance : Std.Total intervalLe where
  total first second := by
    unfold intervalLe
    omega

instance : IsTrans (Int × Int) intervalLe where
  trans first second third := by
    unfold intervalLe
    omega

theorem mergeIntervals_spec
    (ranges : ∀ interval ∈ intervals, PageRange totalLines interval) :
    (∀ interval ∈ mergeIntervals intervals, PageRange totalLines interval) ∧
      ByStart (mergeIntervals intervals) ∧
      ∀ line, CoversLine (mergeIntervals intervals) line ↔ CoversLine intervals line := by
  have sorted : ByStart (intervals.insertionSort intervalLe) := by
    refine (List.pairwise_insertionSort intervalLe intervals).imp ?_
    intro first second ordered
    unfold intervalLe at ordered
    omega
  have start : MergedBefore totalLines [] (intervals.insertionSort intervalLe) :=
    ⟨by simpa using ranges, List.Pairwise.nil, by simp, sorted⟩
  have spec := mergeInto_spec start
  refine ⟨spec.1, spec.2.1, fun line => ?_⟩
  rw [mergeIntervals, spec.2.2]
  simp [CoversLine]

/-! ## The next line -/

theorem nextStartLineFrom_eq_none_iff
    (expected : Int)
    (ranges : ∀ interval ∈ intervals, PageRange totalLines interval)
    (ordered : ByStart intervals) :
    nextStartLineFrom expected totalLines intervals = none ↔
      ∀ line, expected ≤ line → line ≤ totalLines → CoversLine intervals line := by
  induction intervals generalizing expected with
  | nil =>
      rw [nextStartLineFrom]
      by_cases left : expected ≤ totalLines
      · simp only [left, if_true, reduceCtorEq, CoversLine, List.not_mem_nil, false_iff]
        intro all
        obtain ⟨interval, member, -⟩ := all expected (le_refl _) left
        exact member
      · simp only [left, if_false, true_iff]
        intro line early late
        omega
  | cons interval rest ih =>
      obtain ⟨start, stop⟩ := interval
      have range := ranges (start, stop) List.mem_cons_self
      have later : ∀ next ∈ rest, start ≤ next.1 := fun next member =>
        List.rel_of_pairwise_cons ordered member
      rw [nextStartLineFrom]
      by_cases gap : start > expected
      · simp only [gap, if_true, reduceCtorEq, false_iff]
        intro all
        unfold PageRange at range
        obtain ⟨other, member, early, -⟩ := all expected (le_refl _) (by omega)
        rcases List.mem_cons.mp member with rfl | inRest
        · omega
        · have := later other inRest
          omega
      · rw [if_neg gap, ih _
          (fun other member => ranges other (List.mem_cons_of_mem _ member)) ordered.of_cons]
        constructor
        · intro covered line early late
          rw [coversLine_cons]
          by_cases inside : line ≤ stop
          · left
            exact ⟨by omega, inside⟩
          · right
            exact covered line (by omega) late
        · intro covered line early late
          have inIntervals := covered line (by omega) late
          rw [coversLine_cons] at inIntervals
          exact inIntervals.resolve_left (by omega)

end MrAgent
