import Mathlib

namespace IntervalMarks

/-!
# Accounting for intervals from their marks

A log holds start and stop marks in the order of time. Reading it forward, a
start opens an interval unless one is open, and a stop closes the open one. The
closed intervals cover the time from the first start to the last stop exactly
where the log resumes at the time of every earlier stop.
-/

variable {α : Type}

/-- One mark of a log. -/
inductive Mark (α : Type) where
  | start (time : α)
  | stop (time : α)
deriving DecidableEq

/-- The time of a mark. -/
def Mark.time : Mark α → α
  | start time => time
  | stop time => time

/-- The marks are in the order of time. -/
def Ordered [LE α] (marks : List (Mark α)) : Prop :=
  marks.Pairwise fun first second => first.time ≤ second.time

/-! ## Reading a log -/

/-- The interval that is open after the log. -/
def leftOpen : Option α → List (Mark α) → Option α
  | state, [] => state
  | state, .start time :: rest => leftOpen (some (state.getD time)) rest
  | _, .stop _ :: rest => leftOpen none rest

/-- The length of the intervals that the log closes. -/
def total [AddGroup α] [LE α] [DecidableLE α] : Option α → List (Mark α) → α
  | _, [] => 0
  | state, .start time :: rest => total (some (state.getD time)) rest
  | none, .stop _ :: rest => total none rest
  | some begun, .stop time :: rest =>
    (if begun ≤ time then time - begun else 0) + total none rest

/-- The last stop. -/
def lastStop : List (Mark α) → Option α
  | [] => none
  | .start _ :: rest => lastStop rest
  | .stop time :: rest => some ((lastStop rest).getD time)

/-- The time from a moment to the last stop. -/
def reach [AddGroup α] (moment : α) (marks : List (Mark α)) : α :=
  ((lastStop marks).map (· - moment)).getD 0

/-- The time from the first start to the last stop behind it. -/
def extent [AddGroup α] : List (Mark α) → α
  | [] => 0
  | .start time :: rest => reach time rest
  | .stop _ :: rest => extent rest

/-- The times of the starts. -/
def starts (marks : List (Mark α)) : List α :=
  marks.filterMap fun
    | .start time => some time
    | .stop _ => none

/-- The times of the stops. -/
def stops (marks : List (Mark α)) : List α :=
  marks.filterMap fun
    | .start _ => none
    | .stop time => some time

/-- The time from the earliest start to the latest stop. -/
def span [AddGroup α] [LE α] [DecidableLE α] [Min α] [Max α] (starts stops : List α) : α :=
  match starts.min?, stops.max? with
  | some first, some last => if first ≤ last then last - first else 0
  | _, _ => 0

/-- A log that goes on behind a moment starts again at that moment. -/
def Resumes [LT α] (moment : α) (marks : List (Mark α)) : Prop :=
  ∀ time, Mark.stop time ∈ marks → moment < time → Mark.start moment ∈ marks

/-- The log resumes at every stop. -/
def Gapless [LT α] : List (Mark α) → Prop
  | [] => True
  | .start _ :: rest => Gapless rest
  | .stop time :: rest => Resumes time rest ∧ Gapless rest

/-- The log resumes at every stop behind the first start. -/
def Uninterrupted [LT α] : List (Mark α) → Prop
  | [] => True
  | .start _ :: rest => Gapless rest
  | .stop _ :: rest => Uninterrupted rest

/-! ## What is left open -/

theorem leftOpen_isSome
    (marks : List (Mark α))
    (state : Option α) :
    (leftOpen state marks).isSome =
      match marks.getLast? with
      | some (.start _) => true
      | some (.stop _) => false
      | none => state.isSome := by
  induction marks generalizing state with
  | nil =>
      rfl
  | cons mark rest ih =>
      cases mark with
      | start time =>
          rw [leftOpen, ih]
          cases rest with
          | nil =>
              rfl
          | cons next rest =>
              rw [List.getLast?_cons_cons]
              cases last : (next :: rest).getLast? with
              | none => simp at last
              | some mark => cases mark <;> rfl
      | stop time =>
          rw [leftOpen, ih]
          cases rest with
          | nil =>
              rfl
          | cons next rest =>
              rw [List.getLast?_cons_cons]
              cases last : (next :: rest).getLast? with
              | none => simp at last
              | some mark => cases mark <;> rfl

/-! ## The last stop -/

variable {marks : List (Mark α)}

theorem lastStop_eq_none :
    lastStop marks = none ↔ ∀ time, Mark.stop time ∉ marks := by
  induction marks with
  | nil =>
      simp [lastStop]
  | cons mark rest ih =>
      cases mark with
      | start time =>
          simp [lastStop, ih]
      | stop time =>
          simp only [lastStop, reduceCtorEq, List.mem_cons, not_or, false_iff, not_forall]
          exact ⟨time, fun absent => absent.1 rfl⟩

theorem lastStop_mem
    {time : α}
    (last : lastStop marks = some time) :
    Mark.stop time ∈ marks := by
  induction marks with
  | nil =>
      cases last
  | cons mark rest ih =>
      cases mark with
      | start other =>
          exact List.mem_cons_of_mem _ (ih last)
      | stop other =>
          cases later : lastStop rest with
          | none =>
              obtain rfl : other = time := by simpa [lastStop, later] using last
              exact List.mem_cons_self
          | some found =>
              obtain rfl : found = time := by simpa [lastStop, later] using last
              exact List.mem_cons_of_mem _ (ih later)

theorem le_lastStop
    [Preorder α]
    {time last : α}
    (ordered : Ordered marks)
    (found : lastStop marks = some last)
    (member : Mark.stop time ∈ marks) :
    time ≤ last := by
  induction marks with
  | nil =>
      cases found
  | cons mark rest ih =>
      obtain ⟨before, tailOrdered⟩ := List.pairwise_cons.mp ordered
      cases mark with
      | start other =>
          rcases List.mem_cons.mp member with head | tail
          · cases head
          · exact ih tailOrdered found tail
      | stop other =>
          cases later : lastStop rest with
          | none =>
              obtain rfl : other = last := by simpa [lastStop, later] using found
              rcases List.mem_cons.mp member with head | tail
              · exact le_of_eq (Mark.stop.inj head)
              · exact absurd tail (lastStop_eq_none.mp later time)
          | some final =>
              obtain rfl : final = last := by simpa [lastStop, later] using found
              rcases List.mem_cons.mp member with head | tail
              · rw [Mark.stop.inj head]
                exact before _ (lastStop_mem later)
              · exact ih tailOrdered later tail

/-! ## Starts and stops -/

theorem mem_starts
    {time : α} :
    time ∈ starts marks ↔ Mark.start time ∈ marks := by
  simp only [starts, List.mem_filterMap]
  constructor
  · rintro ⟨mark, member, same⟩
    cases mark with
    | start other => exact Option.some.inj same ▸ member
    | stop other => cases same
  · exact fun member => ⟨_, member, rfl⟩

theorem mem_stops
    {time : α} :
    time ∈ stops marks ↔ Mark.stop time ∈ marks := by
  simp only [stops, List.mem_filterMap]
  constructor
  · rintro ⟨mark, member, same⟩
    cases mark with
    | start other => cases same
    | stop other => exact Option.some.inj same ▸ member
  · exact fun member => ⟨_, member, rfl⟩

/-! ## Covered time -/

theorem not_start_of_lt
    [Preorder α]
    {moment time : α}
    (after : ∀ mark ∈ marks, time ≤ mark.time)
    (earlier : moment < time) :
    Mark.start moment ∉ marks :=
  fun member => absurd (after _ member) (not_le_of_gt earlier)

variable [Field α] [LinearOrder α] [IsStrictOrderedRing α]

/--
An open log covers at most the time to its last stop, a closed one at most the
time from the moment since which it is closed; both cover all of it just when
the log has no gap.
-/
theorem total_le_reach
    (marks : List (Mark α))
    (ordered : Ordered marks)
    (moment : α)
    (after : ∀ mark ∈ marks, moment ≤ mark.time) :
    (total (some moment) marks ≤ reach moment marks ∧
      (total (some moment) marks = reach moment marks ↔ Gapless marks)) ∧
    (total none marks ≤ reach moment marks ∧
      (total none marks = reach moment marks ↔ Resumes moment marks ∧ Gapless marks)) := by
  induction marks generalizing moment with
  | nil =>
      simp [total, reach, lastStop, Gapless, Resumes]
  | cons mark rest ih =>
      obtain ⟨behind, tailOrdered⟩ := List.pairwise_cons.mp ordered
      have here : moment ≤ mark.time := after mark List.mem_cons_self
      have onward : ∀ other ∈ rest, moment ≤ other.time :=
        fun other member => after other (List.mem_cons_of_mem _ member)
      obtain ⟨openSince, closedSince⟩ := ih tailOrdered moment onward
      obtain ⟨openHere, closedHere⟩ := ih tailOrdered mark.time behind
      cases mark with
      | start time =>
          refine ⟨openSince, ?_⟩
          simp only [Mark.time] at here behind openHere
          cases last : lastStop rest with
          | none =>
              have nothing : reach time rest = 0 ∧ reach moment (Mark.start time :: rest) = 0 := by
                simp [reach, lastStop, last]
              have unstopped : ∀ other, Mark.stop other ∉ Mark.start time :: rest := by
                simpa using lastStop_eq_none.mp last
              rw [nothing.1] at openHere
              rw [nothing.2]
              refine ⟨openHere.1, openHere.2.trans ⟨fun gapless => ⟨?_, gapless⟩, (·.2)⟩⟩
              exact fun other member => absurd member (unstopped other)
          | some final =>
              have reached : reach moment (Mark.start time :: rest) =
                  reach time rest + (time - moment) := by
                simp only [reach, lastStop, last, Option.map_some, Option.getD_some]
                exact (sub_add_sub_cancel final time moment).symm
              have final_le : time ≤ final := behind _ (lastStop_mem last)
              rw [reached]
              refine ⟨le_add_of_le_of_nonneg openHere.1 (sub_nonneg.mpr here), ?_⟩
              constructor
              · intro all
                -- Both the covered time and the wait for the start are exhausted.
                have wait : time - moment = 0 := by
                  have bound := openHere.1
                  change total (some time) rest = _ at all
                  linarith
                have covered : total (some time) rest = reach time rest := by
                  change total (some time) rest = _ at all
                  rw [all, wait, add_zero]
                obtain rfl : time = moment := sub_eq_zero.mp wait
                exact ⟨fun _ _ _ => List.mem_cons_self, openHere.2.mp covered⟩
              · rintro ⟨resumes, gapless⟩
                have same : time = moment := by
                  rcases lt_or_eq_of_le here with later | same
                  · have start := resumes final
                      (List.mem_cons_of_mem _ (lastStop_mem last)) (lt_of_lt_of_le later final_le)
                    rcases List.mem_cons.mp start with head | tail
                    · exact (Mark.start.inj head).symm
                    · exact absurd tail (not_start_of_lt behind later)
                  · exact same.symm
                change total (some time) rest = _
                rw [openHere.2.mpr gapless, same, sub_self, add_zero]
      | stop time =>
          simp only [Mark.time] at here behind closedHere
          have reached : reach moment (Mark.stop time :: rest) =
              (time - moment) + reach time rest := by
            cases last : lastStop rest with
            | none =>
                simp [reach, lastStop, last]
            | some final =>
                simp only [reach, lastStop, last, Option.map_some, Option.getD_some]
                rw [add_comm]
                exact (sub_add_sub_cancel final time moment).symm
          constructor
          · have counted : total (some moment) (Mark.stop time :: rest) =
                (time - moment) + total none rest := by
              rw [total, if_pos here]
            rw [counted, reached]
            exact ⟨add_le_add_right closedHere.1 _, add_right_inj _ |>.trans closedHere.2⟩
          · change total none rest ≤ _ ∧ (total none rest = _ ↔ _)
            rw [reached]
            have wait : 0 ≤ time - moment := sub_nonneg.mpr here
            refine ⟨le_trans closedHere.1 (le_add_of_nonneg_left wait), ?_⟩
            constructor
            · intro all
              have bound := closedHere.1
              have same : time - moment = 0 := by linarith
              have covered : total none rest = reach time rest := by rw [all, same, zero_add]
              obtain rfl : time = moment := sub_eq_zero.mp same
              obtain ⟨resumes, gapless⟩ := closedHere.2.mp covered
              refine ⟨?_, resumes, gapless⟩
              intro other member later
              rcases List.mem_cons.mp member with head | tail
              · rw [Mark.stop.inj head] at later
                exact absurd later (lt_irrefl _)
              · exact List.mem_cons_of_mem _ (resumes other tail later)
            · rintro ⟨resumes, gapless⟩
              have same : time = moment := by
                rcases lt_or_eq_of_le here with later | same
                · have start := resumes time List.mem_cons_self later
                  rcases List.mem_cons.mp start with head | tail
                  · cases head
                  · exact absurd tail (not_start_of_lt behind later)
                · exact same.symm
              rw [closedHere.2.mpr gapless, same, sub_self, zero_add]

theorem total_le_extent
    (marks : List (Mark α))
    (ordered : Ordered marks) :
    total none marks ≤ extent marks ∧
      (total none marks = extent marks ↔ Uninterrupted marks) := by
  induction marks with
  | nil =>
      simp [total, extent, Uninterrupted]
  | cons mark rest ih =>
      obtain ⟨behind, tailOrdered⟩ := List.pairwise_cons.mp ordered
      cases mark with
      | start time =>
          exact (total_le_reach rest tailOrdered time behind).1
      | stop time =>
          exact ih tailOrdered

omit [Field α] [IsStrictOrderedRing α] in
theorem max?_stops
    (ordered : Ordered marks) :
    (stops marks).max? = lastStop marks := by
  cases last : lastStop marks with
  | none =>
      rw [List.max?_eq_none_iff, List.eq_nil_iff_forall_not_mem]
      exact fun time member => lastStop_eq_none.mp last time (mem_stops.mp member)
  | some final =>
      refine List.max?_eq_some_iff.mpr ⟨mem_stops.mpr (lastStop_mem last), ?_⟩
      exact fun time member => le_lastStop ordered last (mem_stops.mp member)

theorem extent_eq_span
    (marks : List (Mark α))
    (ordered : Ordered marks) :
    extent marks = span (starts marks) (stops marks) := by
  induction marks with
  | nil =>
      rfl
  | cons mark rest ih =>
      obtain ⟨behind, tailOrdered⟩ := List.pairwise_cons.mp ordered
      cases mark with
      | start time =>
          have first : (starts (Mark.start time :: rest)).min? = some time := by
            refine List.min?_eq_some_iff.mpr ⟨mem_starts.mpr List.mem_cons_self, ?_⟩
            intro other member
            rcases List.mem_cons.mp (mem_starts.mp member) with head | tail
            · exact le_of_eq (Mark.start.inj head).symm
            · exact behind _ tail
          rw [span, first, max?_stops ordered]
          change reach time rest = _
          cases last : lastStop rest with
          | none =>
              simp [reach, lastStop, last]
          | some final =>
              have later : time ≤ final := behind _ (lastStop_mem last)
              simp [reach, lastStop, last, later]
      | stop time =>
          change extent rest = span (starts rest) (stops (Mark.stop time :: rest))
          rw [ih tailOrdered, span, span, max?_stops ordered,
            max?_stops tailOrdered]
          cases first : (starts rest).min? with
          | none =>
              rfl
          | some start =>
              have started := mem_starts.mp (List.min?_eq_some_iff.mp first).1
              have later : time ≤ start := behind _ started
              cases last : lastStop rest with
              | none =>
                  -- The only stop is not behind the first start.
                  simp only [lastStop, last, Option.getD_none]
                  split
                  · rename_i early
                    exact (sub_eq_zero.mpr (le_antisymm later early)).symm
                  · rfl
              | some final =>
                  simp [lastStop, last]

theorem total_nonneg
    (marks : List (Mark α))
    (state : Option α) :
    0 ≤ total state marks := by
  induction marks generalizing state with
  | nil =>
      exact le_refl 0
  | cons mark rest ih =>
      cases mark with
      | start time =>
          exact ih _
      | stop time =>
          cases state with
          | none =>
              exact ih none
          | some begun =>
              refine add_nonneg ?_ (ih none)
              split
              · rename_i early
                exact sub_nonneg.mpr early
              · exact le_refl 0

omit [IsStrictOrderedRing α] in
theorem span_congr
    {starts otherStarts stops otherStops : List α}
    (sameStarts : ∀ time, time ∈ starts ↔ time ∈ otherStarts)
    (sameStops : ∀ time, time ∈ stops ↔ time ∈ otherStops) :
    span starts stops = span otherStarts otherStops := by
  have first : starts.min? = otherStarts.min? := by
    apply Option.ext
    intro time
    simp only [List.min?_eq_some_iff, sameStarts]
  have last : stops.max? = otherStops.max? := by
    apply Option.ext
    intro time
    simp only [List.max?_eq_some_iff, sameStops]
  rw [span, span, first, last]

omit [IsStrictOrderedRing α] in
theorem span_eq_zero
    {starts stops : List α}
    (apart : ∀ begun ∈ starts, ∀ ended ∈ stops, ended < begun) :
    span starts stops = 0 := by
  unfold span
  split
  · rename_i first last foundFirst foundLast
    have late := apart first (List.min?_eq_some_iff.mp foundFirst).1 last
      (List.max?_eq_some_iff.mp foundLast).1
    exact if_neg (not_le_of_gt late)
  · rfl

end IntervalMarks
