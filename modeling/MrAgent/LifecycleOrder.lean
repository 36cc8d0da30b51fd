import Mathlib
import MrAgent.LifecycleSummary
import MrAgent.SeparatedText

namespace MrAgent

open IntervalMarks

/-!
# What a lifecycle summary depends on

The pass over the sorted events treats every segment by itself, as a log of
start and stop marks. Events with one id are copies of one event, so the sorted
list, and with it the summary, does not depend on the order of reading. Whether
a segment is complete and accounted for is decided by the order of its marks.
-/

/-! ## The order of the events -/

section Order

variable {first second third : LifecycleEvent}

theorem before_iff :
    first.before second = true ↔
      first.occurredAt < second.occurredAt ∨
        first.occurredAt = second.occurredAt ∧ first.eventId ≤ second.eventId := by
  simp [LifecycleEvent.before]

theorem before_trans
    (early : first.before second = true)
    (late : second.before third = true) :
    first.before third = true := by
  rw [before_iff] at early late ⊢
  rcases early with earlier | ⟨same, ids⟩
  · rcases late with later | ⟨alike, -⟩
    · exact Or.inl (lt_trans earlier later)
    · exact Or.inl (alike ▸ earlier)
  · rcases late with later | ⟨alike, more⟩
    · exact Or.inl (same ▸ later)
    · exact Or.inr ⟨same.trans alike, le_trans ids more⟩

theorem before_total (first second : LifecycleEvent) :
    (first.before second || second.before first) = true := by
  rw [Bool.or_eq_true, before_iff, before_iff]
  rcases lt_trichotomy first.occurredAt second.occurredAt with earlier | same | later
  · exact Or.inl (Or.inl earlier)
  · rcases le_total first.eventId second.eventId with below | above
    · exact Or.inl (Or.inr ⟨same, below⟩)
    · exact Or.inr (Or.inr ⟨same.symm, above⟩)
  · exact Or.inr (Or.inl later)

theorem occurredAt_le_of_before
    (ordered : first.before second = true) :
    first.occurredAt ≤ second.occurredAt := by
  rcases before_iff.mp ordered with earlier | ⟨same, -⟩
  · exact le_of_lt earlier
  · exact le_of_eq same

end Order

theorem orderedEvents_perm (events : List LifecycleEvent) :
    (orderedEvents events).Perm events :=
  List.mergeSort_perm events LifecycleEvent.before

theorem orderedEvents_pairwise (events : List LifecycleEvent) :
    (orderedEvents events).Pairwise fun first second => first.before second = true :=
  @List.pairwise_mergeSort _ LifecycleEvent.before (fun _ _ _ => before_trans) before_total events

/-! ## Events of a task -/

theorem LifecyclePhase.value_clean (phase : LifecyclePhase) :
    '\x1f' ∉ phase.value.toList ∧ ':' ∉ phase.value.toList := by
  cases phase <;> decide

theorem LifecyclePhase.value_injective : Function.Injective LifecyclePhase.value := by
  intro first second same
  cases first <;> cases second <;> first | rfl | exact absurd same (by decide)

theorem LifecycleKind.value_clean (kind : LifecycleKind) : '\x1f' ∉ kind.value.toList := by
  cases kind <;> decide

theorem LifecycleKind.value_injective : Function.Injective LifecycleKind.value := by
  intro first second same
  cases first <;> cases second <;> first | rfl | exact absurd same (by decide)

variable {taskId : String}

theorem lifecycleIdentity_inj
    {phase other : LifecyclePhase}
    {segment another : String}
    {kind opposite : LifecycleKind}
    (same : lifecycleIdentity taskId phase segment kind =
      lifecycleIdentity taskId other another opposite) :
    phase = other ∧ segment = another ∧ kind = opposite := by
  have texts := congrArg String.toList same
  simp only [lifecycleIdentity, String.toList_append, List.append_assoc] at texts
  have task := List.append_cancel_left texts
  have unit : "\x1f".toList = ['\x1f'] := by decide
  simp only [unit, List.singleton_append, List.cons.injEq, true_and] at task
  obtain ⟨phases, rest⟩ := (SeparatedText.append_cons_inj phase.value_clean.1
    other.value_clean.1).mp task
  obtain ⟨segments, kinds⟩ := (SeparatedText.append_cons_inj_right kind.value_clean
    opposite.value_clean).mp rest
  exact ⟨LifecyclePhase.value_injective (String.toList_inj.mp phases),
    String.toList_inj.mp segments, LifecycleKind.value_injective (String.toList_inj.mp kinds)⟩

theorem segmentName_inj
    {key other : LifecyclePhase × String}
    (same : segmentName key = segmentName other) :
    key = other := by
  have texts := congrArg String.toList same
  simp only [segmentName, String.toList_append, List.append_assoc] at texts
  have unit : ":".toList = [':'] := by decide
  simp only [unit, List.singleton_append] at texts
  obtain ⟨phases, segments⟩ := (SeparatedText.append_cons_inj key.1.value_clean.2
    other.1.value_clean.2).mp texts
  exact Prod.ext (LifecyclePhase.value_injective (String.toList_inj.mp phases))
    (String.toList_inj.mp segments)

/-- Events that `LifecycleEvent.new` has made for one task. -/
def EventsOf (digest : String → String) (taskId : String) (events : List LifecycleEvent) : Prop :=
  ∀ event ∈ events, event.taskId = taskId ∧
    event.eventId = digest (lifecycleIdentity taskId event.phase event.segmentId event.kind)

/-- The digest tells the texts behind the ids of these events apart. -/
def CollisionFree
    (digest : String → String)
    (taskId : String)
    (events : List LifecycleEvent) : Prop :=
  ∀ first ∈ events, ∀ second ∈ events,
    digest (lifecycleIdentity taskId first.phase first.segmentId first.kind) =
        digest (lifecycleIdentity taskId second.phase second.segmentId second.kind) →
      lifecycleIdentity taskId first.phase first.segmentId first.kind =
        lifecycleIdentity taskId second.phase second.segmentId second.kind

variable {events : List LifecycleEvent}

theorem event_eq
    {digest : String → String}
    (made : EventsOf digest taskId events)
    (apart : CollisionFree digest taskId events)
    {first second : LifecycleEvent}
    (firstRead : first ∈ events)
    (secondRead : second ∈ events)
    (times : first.occurredAt = second.occurredAt)
    (ids : first.eventId = second.eventId) :
    first = second := by
  obtain ⟨firstTask, firstId⟩ := made first firstRead
  obtain ⟨secondTask, secondId⟩ := made second secondRead
  have identity := apart first firstRead second secondRead
    (firstId.symm.trans (ids.trans secondId))
  obtain ⟨phases, segments, kinds⟩ := lifecycleIdentity_inj identity
  cases first
  cases second
  simp_all

theorem orderedEvents_of_perm
    {digest : String → String}
    {events order : List LifecycleEvent}
    (made : EventsOf digest taskId events)
    (apart : CollisionFree digest taskId events)
    (perm : order.Perm events) :
    orderedEvents order = orderedEvents events := by
  have sorted := ((orderedEvents_perm order).trans perm).trans (orderedEvents_perm events).symm
  refine sorted.eq_of_pairwise ?_ (orderedEvents_pairwise order) (orderedEvents_pairwise events)
  intro first second firstRead secondRead early late
  have firstEvent := perm.mem_iff.mp ((orderedEvents_perm order).mem_iff.mp firstRead)
  have secondEvent := (orderedEvents_perm events).mem_iff.mp secondRead
  have times := le_antisymm (occurredAt_le_of_before early) (occurredAt_le_of_before late)
  have below : first.eventId ≤ second.eventId :=
    ((before_iff.mp early).resolve_left (not_lt_of_ge (ge_of_eq times))).2
  have above : second.eventId ≤ first.eventId :=
    ((before_iff.mp late).resolve_left (not_lt_of_ge (le_of_eq times))).2
  exact event_eq made apart firstEvent secondEvent times (le_antisymm below above)

theorem summarizeLifecycle_of_perm
    {digest : String → String}
    {events order : List LifecycleEvent}
    (made : EventsOf digest taskId events)
    (apart : CollisionFree digest taskId events)
    (perm : order.Perm events) :
    summarizeLifecycle order = summarizeLifecycle events := by
  simp only [summarizeLifecycle, phaseTotal, lifecycleScan, orderedEvents_of_perm made apart perm]

/-! ## Segments as logs -/

/-- The marks of one segment among some events. -/
def marksOf
    (key : LifecyclePhase × String)
    (events : List LifecycleEvent) : List (Mark Time) :=
  events.filterMap fun event =>
    if event.key = key then
      match event.kind with
      | .point => none
      | .start => some (.start event.occurredAt)
      | .stop => some (.stop event.occurredAt)
    else none

/-- The marks of a segment in the order of the pass. -/
def segmentLog
    (events : List LifecycleEvent)
    (key : LifecyclePhase × String) : List (Mark Time) :=
  marksOf key (orderedEvents events)

variable {key : LifecyclePhase × String}

theorem marksOf_cons_of_ne
    {event : LifecycleEvent}
    {rest : List LifecycleEvent}
    (other : event.key ≠ key) :
    marksOf key (event :: rest) = marksOf key rest := by
  simp [marksOf, other]

theorem mem_marksOf
    {mark : Mark Time} :
    mark ∈ marksOf key events ↔ ∃ event ∈ events, event.key = key ∧
      (event.kind = .start ∧ mark = .start event.occurredAt ∨
        event.kind = .stop ∧ mark = .stop event.occurredAt) := by
  simp only [marksOf, List.mem_filterMap]
  constructor
  · rintro ⟨event, member, made⟩
    split at made
    · rename_i same
      refine ⟨event, member, same, ?_⟩
      cases kind : event.kind with
      | point => simp [kind] at made
      | start => exact Or.inl ⟨rfl, by simpa [kind, eq_comm] using made⟩
      | stop => exact Or.inr ⟨rfl, by simpa [kind, eq_comm] using made⟩
    · cases made
  · rintro ⟨event, member, same, ⟨kind, rfl⟩ | ⟨kind, rfl⟩⟩
    · exact ⟨event, member, by simp [same, kind]⟩
    · exact ⟨event, member, by simp [same, kind]⟩

theorem segmentLog_ordered
    (events : List LifecycleEvent)
    (key : LifecyclePhase × String) :
    Ordered (segmentLog events key) := by
  have times : (orderedEvents events).Pairwise fun first second =>
      first.occurredAt ≤ second.occurredAt :=
    (orderedEvents_pairwise events).imp occurredAt_le_of_before
  refine List.Pairwise.filterMap _ ?_ times
  intro first second ordered firstMark firstMade secondMark secondMade
  have timeOf : ∀ {event : LifecycleEvent} {mark : Mark Time},
      mark ∈ marksOf key [event] → mark.time = event.occurredAt := by
    intro event mark member
    obtain ⟨event, only, -, ⟨-, rfl⟩ | ⟨-, rfl⟩⟩ := mem_marksOf.mp member
    · rw [List.mem_singleton.mp only]; rfl
    · rw [List.mem_singleton.mp only]; rfl
  rw [timeOf (List.mem_filterMap.mpr ⟨first, List.mem_singleton_self first, firstMade⟩),
    timeOf (List.mem_filterMap.mpr ⟨second, List.mem_singleton_self second, secondMade⟩)]
  exact ordered

namespace LifecycleScan

/-- The time at which a segment was opened. -/
def openedAt (scan : LifecycleScan) (key : LifecyclePhase × String) : Option Time :=
  (scan.startOf key).map (·.occurredAt)

/-- What one event adds to the total of its phase. -/
def gain (scan : LifecycleScan) (event : LifecycleEvent) : Time :=
  total (scan.openedAt event.key) (marksOf event.key [event])

variable {scan : LifecycleScan} {event : LifecycleEvent} {key : LifecyclePhase × String}

theorem startOf_step_of_ne
    (other : event.key ≠ key) :
    (scan.step event).startOf key = scan.startOf key := by
  cases kind : event.kind with
  | point =>
      simp [step, kind]
  | start =>
      simp only [step, kind]
      split
      · rfl
      · simp [startOf, List.find?_append, other]
  | stop =>
      simp only [step, kind]
      split
      · rfl
      · simp only [startOf, List.find?_filter]
        congr 1
        funext start
        by_cases same : start.key = key
        · simp [same, Ne.symm other]
        · simp [same]

theorem openedAt_step (key : LifecyclePhase × String) :
    (scan.step event).openedAt key = leftOpen (scan.openedAt key) (marksOf key [event]) := by
  by_cases same : event.key = key
  · subst same
    cases kind : event.kind with
    | point =>
        simp [openedAt, step, marksOf, kind, leftOpen]
    | start =>
        simp only [openedAt, step, marksOf, kind, List.filterMap_cons, if_true,
          List.filterMap_nil, leftOpen]
        cases found : scan.startOf event.key with
        | none =>
            have absent : scan.starts.find? (·.key = event.key) = none := found
            simp [startOf, List.find?_append, absent]
        | some start =>
            simp [found]
    | stop =>
        simp only [openedAt, step, marksOf, kind, List.filterMap_cons, if_true,
          List.filterMap_nil, leftOpen]
        cases found : scan.startOf event.key with
        | none =>
            simp [found]
        | some start =>
            simp [startOf, List.find?_filter]
  · rw [openedAt, startOf_step_of_ne same, marksOf_cons_of_ne same]
    rfl

theorem durations_step (phase : LifecyclePhase) :
    (scan.step event).durations phase =
      scan.durations phase + (if event.phase = phase then scan.gain event else 0) := by
  have gained : scan.gain event =
      if event.kind = .stop then
        ((scan.startOf event.key).map fun start =>
          if start.occurredAt ≤ event.occurredAt then event.occurredAt - start.occurredAt
          else 0).getD 0
      else 0 := by
    cases kind : event.kind <;> cases found : scan.startOf event.key <;>
      simp [gain, openedAt, marksOf, kind, found, total]
  rw [gained]
  cases kind : event.kind with
  | point =>
      simp [step, kind]
  | start =>
      simp only [step, kind]
      split <;> simp
  | stop =>
      simp only [step, kind]
      cases found : scan.startOf event.key with
      | none =>
          simp
      | some start =>
          by_cases same : event.phase = phase
          · simp [same]
          · simp [same, Ne.symm same]

theorem openedAt_foldl
    (events : List LifecycleEvent)
    (scan : LifecycleScan)
    (key : LifecyclePhase × String) :
    (events.foldl step scan).openedAt key = leftOpen (scan.openedAt key) (marksOf key events) := by
  induction events generalizing scan with
  | nil =>
      rfl
  | cons event rest ih =>
      rw [List.foldl_cons, ih, openedAt_step]
      by_cases same : event.key = key
      · cases kind : event.kind <;> simp [marksOf, same, kind, leftOpen]
      · rw [marksOf_cons_of_ne same, marksOf_cons_of_ne same]
        rfl

theorem durations_foldl
    (events : List LifecycleEvent)
    (segments : Finset String)
    (named : ∀ event ∈ events, event.segmentId ∈ segments)
    (scan : LifecycleScan)
    (phase : LifecyclePhase) :
    (events.foldl step scan).durations phase =
      scan.durations phase + segments.sum fun segment =>
        total (scan.openedAt (phase, segment)) (marksOf (phase, segment) events) := by
  induction events generalizing scan with
  | nil =>
      simp [marksOf, total]
  | cons event rest ih =>
      have read : ∀ segment ∈ segments,
          total (scan.openedAt (phase, segment)) (marksOf (phase, segment) (event :: rest)) =
            (if event.segmentId = segment then
              if event.phase = phase then scan.gain event else 0 else 0) +
              total ((scan.step event).openedAt (phase, segment))
                (marksOf (phase, segment) rest) := by
        intro segment _
        rw [openedAt_step]
        by_cases same : event.key = (phase, segment)
        · obtain ⟨rfl, rfl⟩ : event.phase = phase ∧ event.segmentId = segment :=
            Prod.mk.inj same
          simp only [gain, LifecycleEvent.key]
          cases kind : event.kind with
          | point =>
              simp [marksOf, LifecycleEvent.key, kind, leftOpen, total]
          | start =>
              simp [marksOf, LifecycleEvent.key, kind, leftOpen, total]
          | stop =>
              cases scan.openedAt (event.phase, event.segmentId) <;>
                simp [marksOf, LifecycleEvent.key, kind, leftOpen, total]
        · rw [marksOf_cons_of_ne same, marksOf_cons_of_ne same]
          have apart : ¬ (event.segmentId = segment ∧ event.phase = phase) :=
            fun both => same (Prod.ext both.2 both.1)
          split
          · rename_i here
            rw [if_neg (fun there => apart ⟨here, there⟩), zero_add]
            rfl
          · rw [zero_add]
            rfl
      rw [List.foldl_cons, ih (fun other member => named other
        (List.mem_cons_of_mem _ member)), durations_step, Finset.sum_congr rfl read,
        Finset.sum_add_distrib, Finset.sum_ite_eq, if_pos (named event List.mem_cons_self),
        add_assoc]

end LifecycleScan

/-! ## What the summary reports -/

theorem mem_incompleteSegments :
    segmentName key ∈ (summarizeLifecycle events).incompleteSegments ↔
      (leftOpen none (segmentLog events key)).isSome = true := by
  have opened : (lifecycleScan events).openedAt key = leftOpen none (segmentLog events key) :=
    LifecycleScan.openedAt_foldl _ _ key
  rw [← opened]
  simp only [summarizeLifecycle, List.mem_mergeSort, List.mem_map, LifecycleScan.openedAt,
    LifecycleScan.startOf, Option.isSome_map, List.find?_isSome, decide_eq_true_eq]
  constructor
  · rintro ⟨start, member, named⟩
    exact ⟨start, member, segmentName_inj named⟩
  · rintro ⟨start, member, rfl⟩
    exact ⟨start, member, rfl⟩

/-- The segments that occur among the events. -/
def segmentsOf (events : List LifecycleEvent) : Finset String :=
  (events.map (·.segmentId)).toFinset

theorem phaseTotal_eq
    (events : List LifecycleEvent)
    (phase : LifecyclePhase) :
    phaseTotal events phase =
      (segmentsOf events).sum fun segment => total none (segmentLog events (phase, segment)) := by
  have named : ∀ event ∈ orderedEvents events, event.segmentId ∈ segmentsOf events := by
    intro event member
    have read := (orderedEvents_perm events).mem_iff.mp member
    exact List.mem_toFinset.mpr (List.mem_map.mpr ⟨event, read, rfl⟩)
  have added := LifecycleScan.durations_foldl (orderedEvents events) (segmentsOf events) named
    LifecycleScan.empty phase
  rw [phaseTotal, lifecycleScan, added]
  exact zero_add _

/-- The times of the starts or of the ends of a segment. -/
def markTimes
    (kind : LifecycleKind)
    (events : List LifecycleEvent)
    (key : LifecyclePhase × String) : List Time :=
  (events.filter fun event => event.key = key && event.kind = kind).map (·.occurredAt)

/-- The end of a segment minus its start: from its first start to its last end. -/
def segmentSpan (events : List LifecycleEvent) (key : LifecyclePhase × String) : Time :=
  span (markTimes .start events key) (markTimes .stop events key)

variable {time : Time}

theorem mem_markTimes
    {kind : LifecycleKind} :
    time ∈ markTimes kind events key ↔
      ∃ event ∈ events, event.key = key ∧ event.kind = kind ∧ event.occurredAt = time := by
  simp [markTimes, List.mem_filter, and_assoc]

theorem start_mem_segmentLog :
    Mark.start time ∈ segmentLog events key ↔ time ∈ markTimes .start events key := by
  rw [segmentLog, mem_marksOf, mem_markTimes]
  simp only [(orderedEvents_perm events).mem_iff]
  constructor
  · rintro ⟨event, member, same, ⟨kind, mark⟩ | ⟨-, mark⟩⟩
    · exact ⟨event, member, same, kind, (Mark.start.inj mark).symm⟩
    · cases mark
  · rintro ⟨event, member, same, kind, rfl⟩
    exact ⟨event, member, same, Or.inl ⟨kind, rfl⟩⟩

theorem stop_mem_segmentLog :
    Mark.stop time ∈ segmentLog events key ↔ time ∈ markTimes .stop events key := by
  rw [segmentLog, mem_marksOf, mem_markTimes]
  simp only [(orderedEvents_perm events).mem_iff]
  constructor
  · rintro ⟨event, member, same, ⟨-, mark⟩ | ⟨kind, mark⟩⟩
    · cases mark
    · exact ⟨event, member, same, kind, (Mark.stop.inj mark).symm⟩
  · rintro ⟨event, member, same, kind, rfl⟩
    exact ⟨event, member, same, Or.inr ⟨kind, rfl⟩⟩

theorem total_segmentLog
    (events : List LifecycleEvent)
    (key : LifecyclePhase × String) :
    total none (segmentLog events key) ≤ segmentSpan events key ∧
      (total none (segmentLog events key) = segmentSpan events key ↔
        Uninterrupted (segmentLog events key)) := by
  have ordered := segmentLog_ordered events key
  have extent_eq : extent (segmentLog events key) = segmentSpan events key := by
    rw [extent_eq_span _ ordered, segmentSpan]
    exact span_congr (fun _ => mem_starts.trans start_mem_segmentLog)
      (fun _ => mem_stops.trans stop_mem_segmentLog)
  rw [← extent_eq]
  exact total_le_extent _ ordered

/-! ## When the summary is right -/

/-- The summary is the same in whatever order the events are read. -/
def OrderIndependent (events : List LifecycleEvent) : Prop :=
  ∀ order : List LifecycleEvent, order.Perm events →
    summarizeLifecycle order = summarizeLifecycle events

/-- A segment with a start and an end that is not before it is not reported as incomplete. -/
def CompleteSegments (events : List LifecycleEvent) : Prop :=
  ∀ first ∈ events, ∀ last ∈ events, first.kind = .start → last.kind = .stop →
    last.key = first.key → first.occurredAt ≤ last.occurredAt →
      segmentName first.key ∉ (summarizeLifecycle events).incompleteSegments

/-- The total of a phase is the sum of its segments. -/
def TotalsAddUp (events : List LifecycleEvent) : Prop :=
  ∀ phase, phaseTotal events phase =
    (segmentsOf events).sum fun segment => segmentSpan events (phase, segment)

/--
A segment with an end that is not before some start ends with an end in the
order of the pass, and starts again at the time of every earlier end.
-/
def SegmentOrdered (events : List LifecycleEvent) (key : LifecyclePhase × String) : Prop :=
  (∃ begun ∈ markTimes .start events key, ∃ ended ∈ markTimes .stop events key, begun ≤ ended) →
    (∃ time, (segmentLog events key).getLast? = some (.stop time)) ∧
      Uninterrupted (segmentLog events key)

theorem leftOpen_of_last_stop
    {log : List (Mark Time)}
    (last : log.getLast? = some (.stop time)) :
    (leftOpen none log).isSome = false := by
  rw [leftOpen_isSome, last]

theorem last_stop_of_leftOpen
    {log : List (Mark Time)}
    (nonempty : log ≠ [])
    (closed : (leftOpen none log).isSome = false) :
    ∃ time, log.getLast? = some (.stop time) := by
  rw [leftOpen_isSome, List.getLast?_eq_some_getLast nonempty] at closed
  rw [List.getLast?_eq_some_getLast nonempty]
  cases last : log.getLast nonempty with
  | start time => simp [last] at closed
  | stop time => exact ⟨time, rfl⟩

/--
The summary of the events of a task does not depend on their order. It reports
complete segments as complete and adds up their times exactly when each of
them is ordered.
-/
theorem lifecycle_summary_faithful_iff
    {digest : String → String}
    {taskId : String}
    {events : List LifecycleEvent}
    (made : EventsOf digest taskId events)
    (apart : CollisionFree digest taskId events) :
    (OrderIndependent events ∧ CompleteSegments events ∧ TotalsAddUp events) ↔
      ∀ key, SegmentOrdered events key := by
  constructor
  · rintro ⟨-, complete, totals⟩ key ⟨begun, started, ended, stopped, early⟩
    have started' := started
    obtain ⟨first, read, rfl, isStart, rfl⟩ := mem_markTimes.mp started
    obtain ⟨last, readLast, sameKey, isStop, rfl⟩ := mem_markTimes.mp stopped
    constructor
    · have nonempty : segmentLog events first.key ≠ [] :=
        List.ne_nil_of_mem (start_mem_segmentLog.mpr started')
      have reported := complete first read last readLast isStart isStop sameKey early
      rw [mem_incompleteSegments, Bool.not_eq_true] at reported
      exact last_stop_of_leftOpen nonempty reported
    · have sums := totals first.phase
      rw [phaseTotal_eq, Finset.sum_eq_sum_iff_of_le
        (fun segment _ => (total_segmentLog events (first.phase, segment)).1)] at sums
      have named : first.segmentId ∈ segmentsOf events :=
        List.mem_toFinset.mpr (List.mem_map.mpr ⟨first, read, rfl⟩)
      exact (total_segmentLog events first.key).2.mp (sums first.segmentId named)
  · intro ordered
    refine ⟨fun order perm => summarizeLifecycle_of_perm made apart perm, ?_, ?_⟩
    · intro first read last readLast isStart isStop sameKey early
      have started := mem_markTimes.mpr ⟨first, read, rfl, isStart, rfl⟩
      have stopped := mem_markTimes.mpr ⟨last, readLast, sameKey, isStop, rfl⟩
      obtain ⟨⟨time, final⟩, -⟩ := ordered first.key ⟨_, started, _, stopped, early⟩
      rw [mem_incompleteSegments, leftOpen_of_last_stop final]
      exact Bool.false_ne_true
    · intro phase
      rw [phaseTotal_eq]
      refine Finset.sum_congr rfl fun segment _ => ?_
      by_cases paired : ∃ begun ∈ markTimes .start events (phase, segment),
          ∃ ended ∈ markTimes .stop events (phase, segment), begun ≤ ended
      · exact (total_segmentLog events (phase, segment)).2.mpr (ordered _ paired).2
      · push Not at paired
        have nothing : segmentSpan events (phase, segment) = 0 := span_eq_zero paired
        have bound := (total_segmentLog events (phase, segment)).1
        rw [nothing] at bound ⊢
        exact le_antisymm bound (total_nonneg _ none)

/-! ## A segment of no length -/

namespace LifecycleSample

/-- The digests of the two ids of the sample segment. -/
def digest (text : String) : String :=
  if text = lifecycleIdentity "task-1" .context "workspace" .start then
    "ffd26d1481bc1df9026fc598"
  else if text = lifecycleIdentity "task-1" .context "workspace" .stop then
    "34327d2d9356639f9f5a276f"
  else text

/-- The segment with a start at 10 and an end at the given time. -/
def begun : LifecycleEvent :=
  LifecycleEvent.new digest "task-1" .context .start "workspace" 10

def ended (time : Time) : LifecycleEvent :=
  LifecycleEvent.new digest "task-1" .context .stop "workspace" time

theorem made (time : Time) : EventsOf digest "task-1" [begun, ended time] := by
  simp [EventsOf, begun, ended, LifecycleEvent.new]

theorem ids_differ : begun.eventId ≠ (ended 0).eventId := by
  decide

theorem apart (time : Time) : CollisionFree digest "task-1" [begun, ended time] := by
  intro first firstRead second secondRead same
  have startId : begun.eventId =
      digest (lifecycleIdentity "task-1" begun.phase begun.segmentId begun.kind) := rfl
  have stopId : (ended 0).eventId = digest (lifecycleIdentity "task-1" (ended time).phase
      (ended time).segmentId (ended time).kind) := rfl
  simp only [List.mem_cons, List.not_mem_nil, or_false] at firstRead secondRead
  rcases firstRead with rfl | rfl <;> rcases secondRead with rfl | rfl
  · rfl
  · rw [← startId, ← stopId] at same
    exact absurd same ids_differ
  · rw [← startId, ← stopId] at same
    exact absurd same.symm ids_differ
  · rfl

theorem ordered_later : orderedEvents [begun, ended 20] = [begun, ended 20] := by
  apply List.mergeSort_of_pairwise
  simp only [List.pairwise_cons, List.mem_singleton, forall_eq, List.not_mem_nil, false_imp_iff,
    implies_true, List.Pairwise.nil, and_true]
  exact before_iff.mpr (Or.inl (by decide))

theorem ordered_together : orderedEvents [begun, ended 10] = [ended 10, begun] := by
  rw [← orderedEvents_of_perm (made 10) (apart 10) (List.Perm.swap _ _ [])]
  apply List.mergeSort_of_pairwise
  simp only [List.pairwise_cons, List.mem_singleton, forall_eq, List.not_mem_nil, false_imp_iff,
    implies_true, List.Pairwise.nil, and_true]
  exact before_iff.mpr (Or.inr ⟨rfl, by decide⟩)

end LifecycleSample

open LifecycleSample in
theorem later_end_completes_segment :
    OrderIndependent [begun, ended 20] ∧ CompleteSegments [begun, ended 20] ∧
      TotalsAddUp [begun, ended 20] := by
  refine (lifecycle_summary_faithful_iff (made 20) (apart 20)).mpr ?_
  rintro key ⟨time, started, -⟩
  obtain ⟨event, member, rfl, isStart, -⟩ := mem_markTimes.mp started
  have first : event = begun := by
    rcases List.mem_cons.mp member with rfl | stop
    · rfl
    · rw [List.mem_singleton.mp stop] at isStart
      cases isStart
  have log : segmentLog [begun, ended 20] begun.key = [.start 10, .stop 20] := by
    rw [segmentLog, ordered_later]
    rfl
  rw [first, log]
  exact ⟨⟨20, rfl⟩, by simp [Uninterrupted, Gapless, Resumes]⟩

open LifecycleSample in
/-- A segment whose start and end fall into one moment is reported as incomplete. -/
theorem end_sorted_before_start :
    begun.occurredAt = (ended 10).occurredAt ∧ begun.key = (ended 10).key ∧
      (summarizeLifecycle [begun, ended 10]).incompleteSegments = ["context:workspace"] := by
  refine ⟨rfl, rfl, ?_⟩
  have starts : (lifecycleScan [begun, ended 10]).starts = [begun] := by
    rw [lifecycleScan, ordered_together]
    rfl
  rw [summarizeLifecycle, starts]
  exact List.mergeSort_singleton _

end MrAgent
