import MrAgent.AdmissionFrame

namespace MrAgent

open TransitionSystem

/-!
# Terminal statuses

A terminal task keeps its status under every operation but two: a completion
script may turn a failed rollback or report into a completed one, and an
admission that reuses the id of a stored task writes `queued` over whatever
the hash held.
-/

/-- No admission in this step reuses the id of a stored terminal task. -/
def AdmitsNoTerminal (s : Broker) (op : Op) : Prop :=
  ∀ task, op.requests task → (s.tasks task).terminal = false

/-- A change to a terminal task: its status stays, or a completion script ended it. -/
structure TerminalKept (op : Op) (task : TaskId) (before after : Broker) : Prop where
  terminal : (after.tasks task).terminal = true
  completed :
    (before.tasks task).status = some .completed → (after.tasks task).status = some .completed
  completion :
    (after.tasks task).status ≠ (before.tasks task).status → op.completes task

namespace TerminalKept

variable {op : Op} {task : TaskId} {before after : Broker}

theorem of_status
    (ended : (before.tasks task).terminal = true)
    (same : (after.tasks task).status = (before.tasks task).status) :
    TerminalKept op task before after := by
  refine ⟨?_, ?_, ?_⟩
  · rw [TaskHash.terminal, same]
    exact ended
  · intro completed
    rw [same, completed]
  · intro changed
    exact absurd same changed

theorem of_kept
    (ended : (before.tasks task).terminal = true)
    (kept : TaskKept (before.tasks task) (after.tasks task)) :
    TerminalKept op task before after :=
  of_status ended (kept.status ended)

theorem of_admits
    {admitted : TaskId}
    (ended : (before.tasks task).terminal = true)
    (admits : Admits admitted before after)
    (live : (before.tasks admitted).terminal = false) :
    TerminalKept op task before after := by
  have different : task ≠ admitted := by
    intro same
    rw [same, live] at ended
    cases ended
  exact of_kept ended (admits.others task different)

end TerminalKept

theorem TaskHash.not_terminal_of_absent
    {task : TaskHash}
    (absent : task.exists_ = false) :
    task.terminal = false := by
  have empty : task = {} := by
    simpa [TaskHash.exists_] using absent
  rw [empty]
  rfl

theorem Broker.step_terminal
    (s : Broker)
    (op : Op)
    (fresh : AdmitsNoTerminal s op)
    {task : TaskId}
    (ended : (s.tasks task).terminal = true) :
    TerminalKept op task s (s.step op) := by
  by_cases leaseCall : ∃ leaseOp, op = .lease leaseOp
  · obtain ⟨leaseOp, rfl⟩ := leaseCall
    obtain ⟨leases, fences, changed⟩ := s.leaseStep_frame leaseOp
    exact .of_status ended (by rw [Broker.step, changed])
  by_cases manifestCall : ∃ manifestOp, op = .manifest manifestOp
  · obtain ⟨manifestOp, rfl⟩ := manifestCall
    refine .of_status ended ?_
    rcases s.manifestStep_cases manifestOp with same | ⟨target, manifest, now, changed⟩
    · rw [Broker.step, same]
    · by_cases equal : task = target
      · simp [Broker.step, changed, equal]
      · simp [Broker.step, changed, equal]
  have change := s.step_change op (fun leaseOp equal => leaseCall ⟨leaseOp, equal⟩)
    (fun manifestOp equal => manifestCall ⟨manifestOp, equal⟩)
  cases change with
  | kept keeps =>
      exact .of_kept ended (keeps.tasks task)
  | requested admitted names admits =>
      exact .of_admits ended admits (fresh admitted names)
  | created admitted absent admits =>
      exact .of_admits ended admits (TaskHash.not_terminal_of_absent absent)
  | ended finished names finishes =>
      by_cases same : task = finished
      · subst task
        exact ⟨finishes.terminal ended, finishes.completed, fun _ => names⟩
      · exact .of_kept ended (finishes.others task same)

theorem reaches_terminal
    {start final : Broker}
    (run : Reaches Broker.step AdmitsNoTerminal start final)
    (task : TaskId) :
    ((start.tasks task).terminal = true → (final.tasks task).terminal = true) ∧
      ((start.tasks task).status = some .completed →
        (final.tasks task).status = some .completed) := by
  refine Reaches.relates
    (fun before after : Broker =>
      ((before.tasks task).terminal = true → (after.tasks task).terminal = true) ∧
        ((before.tasks task).status = some .completed →
          (after.tasks task).status = some .completed)) ?_ ?_ ?_ run
  · intro state
    exact ⟨id, id⟩
  · intro first middle last left right
    exact ⟨right.1 ∘ left.1, right.2 ∘ left.2⟩
  · intro state op fresh
    refine ⟨fun ended => (state.step_terminal op fresh ended).terminal, ?_⟩
    intro completed
    have ended : (state.tasks task).terminal = true := TaskHash.terminal_of_status completed
    exact (state.step_terminal op fresh ended).completed completed

/-- Unless an admission reuses the id of an ended task, it stays ended and a completed one
completed; only completions of rollbacks and reports still change its status. -/
theorem terminal_statuses_absorbing
    {start final : Broker}
    (run : Reaches Broker.step AdmitsNoTerminal start final)
    {task : TaskId}
    (ended : (start.tasks task).terminal = true) :
    (final.tasks task).terminal = true ∧
      ((start.tasks task).status = some .completed →
        (final.tasks task).status = some .completed) ∧
      ∀ op, AdmitsNoTerminal final op →
        ((final.step op).tasks task).status ≠ (final.tasks task).status →
          op.completes task := by
  obtain ⟨terminal, completed⟩ := reaches_terminal run task
  refine ⟨terminal ended, completed, ?_⟩
  intro op fresh changed
  exact (final.step_terminal op fresh (terminal ended)).completion changed

namespace CreationReview

/-- The automatic review of a new merge request. -/
def task : TaskId := ⟨"creation", by decide⟩

def lease : MrLease := ⟨Sample.mr, Sample.workerA, 1⟩

def request : Op :=
  .admission (.enqueue ⟨Sample.envelope task .autoWorkflow "/auto" "creation:7", false⟩)

/-- The review is admitted, assigned, run and completed. -/
def completed : Broker :=
  [request, .lease (.claim Sample.mr Sample.workerA),
    .task (.assign task (some lease) Sample.workerA 2),
    .task (.transition task .start (some lease) {} 3),
    .task (.transition task .publish (some lease) {} 4),
    .task (.transition task .complete (some lease) {} 5)].foldl Broker.step Broker.empty

end CreationReview

/--
The creation recovery repeats its request under the same task id after the
first admission was acknowledged too late. The completed review is queued again.
-/
theorem completed_review_queued_again :
    ((CreationReview.completed.tasks CreationReview.task).payload.map TaskEnvelope.kind) =
        some .autoWorkflow ∧
      (CreationReview.completed.tasks CreationReview.task).status = some .completed ∧
      ((CreationReview.completed.step CreationReview.request).tasks
        CreationReview.task).status = some .queued := by
  decide +kernel

theorem completed_review_stays_completed :
    let late := Op.task (.transition CreationReview.task .failDelivery none {} 6)
    ((CreationReview.completed.step late).tasks CreationReview.task).status =
      some .completed := by
  intro late
  have run :
      Reaches Broker.step AdmitsNoTerminal CreationReview.completed
        (CreationReview.completed.step late) := by
    refine (Reaches.refl _).snoc late ?_
    intro task names
    cases names
  exact (terminal_statuses_absorbing run (by decide +kernel)).2.1 (by decide +kernel)

end MrAgent
