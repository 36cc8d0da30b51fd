import MrAgent.WorkerDuty

namespace MrAgent

open TransitionSystem

/-!
# Recovery of a dead worker's tasks

`recover_dead_workers` runs `RECOVER_DEAD_TASK_LUA` for every member of a dead
worker's task set. The script decides by owner and status, and each branch but
the last removes the member or leaves it for the orphan transfer. Both the
recovery and the stale-queue script queue a task again only below the retry
limit, and both count the attempt.
-/

namespace Broker

/-- The script answers without removing the member from the worker's set. -/
def leftBehind (worker : WorkerId) (stored : TaskHash) : Bool :=
  stored.workerId == some worker &&
    match stored.status with
    | some .waitingPipeline | some .publishing | some .queued | some .canceled | none => true
    | _ => false

/-- `RECOVER_DEAD_TASK_LUA` for each of the given tasks, each with its retry limit. -/
def recoverMembers
    (s : Broker)
    (worker : WorkerId)
    (members : List TaskId)
    (limit : TaskId → Nat)
    (now : Time) : Broker :=
  members.foldl (fun s task => (s.recoverDeadTask worker task (limit task) now).1) s

/-- Every task left in the worker's set is its own and waits for a transfer. -/
def Settled (s : Broker) (worker : WorkerId) : Prop :=
  ∀ task ∈ s.workerTasks worker,
    (s.tasks task).workerId = some worker ∧
      ((s.tasks task).status = some .waitingPipeline ∨
        (s.tasks task).status = some .publishing)

/-- No task of the worker in its set has a status that the script passes by. -/
def Recoverable (s : Broker) (worker : WorkerId) : Prop :=
  ∀ task ∈ s.workerTasks worker, (s.tasks task).workerId = some worker →
    (s.tasks task).status ≠ some .canceled ∧ (s.tasks task).status ≠ some .queued ∧
      (s.tasks task).status ≠ none

variable (s : Broker) (worker : WorkerId)

theorem retryDeadTask_other
    {task other : TaskId} (retryLimit : Nat) (now : Time)
    (different : other ≠ task) :
    (s.retryDeadTask worker task retryLimit now).1.tasks other = s.tasks other := by
  unfold retryDeadTask
  dsimp only
  split
  · exact Function.update_of_ne different _ _
  · split <;> exact Function.update_of_ne different _ _

theorem retryDeadTask_workerTasks (task : TaskId) (retryLimit : Nat) (now : Time) :
    (s.retryDeadTask worker task retryLimit now).1.workerTasks =
      (s.remWorkerTask worker task).workerTasks := by
  unfold retryDeadTask
  dsimp only
  split
  · rfl
  · split <;> rfl

theorem mem_remWorkerTask (task other : TaskId) :
    other ∈ (s.remWorkerTask worker task).workerTasks worker ↔
      other ∈ s.workerTasks worker ∧ other ≠ task := by
  rw [remWorkerTask_workerTasks, Function.update_self, mem_srem]

/--
The script leaves a member as it is, or removes it from the set; the other
tasks and members stay as they are.
-/
theorem recoverDeadTask_spec (task : TaskId) (retryLimit : Nat) (now : Time) :
    let after := (s.recoverDeadTask worker task retryLimit now).1
    (leftBehind worker (s.tasks task) = true ∧ after = s) ∨
      (leftBehind worker (s.tasks task) = false ∧
        after.workerTasks = (s.remWorkerTask worker task).workerTasks ∧
        ∀ other, other ≠ task → after.tasks other = s.tasks other) := by
  unfold recoverDeadTask leftBehind
  dsimp only
  by_cases foreign : (s.tasks task).workerId ≠ some worker
  · rw [if_pos foreign]
    refine Or.inr ⟨?_, rfl, fun _ _ => rfl⟩
    simp [foreign]
  rw [if_neg foreign]
  have owner : ((s.tasks task).workerId == some worker) = true :=
    beq_iff_eq.mpr (not_not.mp foreign)
  rw [owner, Bool.true_and]
  cases (s.tasks task).status with
  | none =>
      exact Or.inl ⟨rfl, rfl⟩
  | some status =>
      cases status with
      | queued | canceled | waitingPipeline | publishing =>
          exact Or.inl ⟨rfl, rfl⟩
      | completed | failed | pausedByTriage =>
          exact Or.inr ⟨rfl, rfl, fun _ _ => rfl⟩
      | assigned | running =>
          exact Or.inr ⟨rfl, retryDeadTask_workerTasks s worker task retryLimit now,
            fun _ different => retryDeadTask_other s worker retryLimit now different⟩

theorem recoverMembers_spec
    (members : List TaskId) (limit : TaskId → Nat) (now : Time) (task : TaskId) :
    let after := s.recoverMembers worker members limit now
    (task ∈ after.workerTasks worker ↔
      task ∈ s.workerTasks worker ∧
        (task ∈ members → leftBehind worker (s.tasks task) = true)) ∧
      (task ∉ members ∨ leftBehind worker (s.tasks task) = true →
        after.tasks task = s.tasks task) := by
  induction members generalizing s with
  | nil =>
      exact ⟨⟨fun member => ⟨member, by simp⟩, fun both => both.1⟩, fun _ => rfl⟩
  | cons first rest ih =>
      obtain ⟨members', tasks'⟩ :=
        ih (s.recoverDeadTask worker first (limit first) now).1
      have unfolded : s.recoverMembers worker (first :: rest) limit now =
          (s.recoverDeadTask worker first (limit first) now).1.recoverMembers worker rest
            limit now := rfl
      rcases recoverDeadTask_spec s worker first (limit first) now with
        ⟨stays, same⟩ | ⟨removed, sets, others⟩
      · -- The first member stays, so the rest of the pass starts from the same state.
        rw [same] at members' tasks'
        rw [unfolded, same]
        refine ⟨members'.trans ⟨?_, ?_⟩, ?_⟩
        · rintro ⟨member, left⟩
          refine ⟨member, ?_⟩
          intro listed
          rcases List.mem_cons.mp listed with rfl | later
          · exact stays
          · exact left later
        · rintro ⟨member, left⟩
          exact ⟨member, fun later => left (List.mem_cons_of_mem _ later)⟩
        · rintro (absent | left)
          · exact tasks' (Or.inl fun later => absent (List.mem_cons_of_mem _ later))
          · exact tasks' (Or.inr left)
      · rw [unfolded]
        by_cases same : task = first
        · subst task
          refine ⟨⟨?_, ?_⟩, ?_⟩
          · intro member
            have kept := (members'.mp member).1
            rw [sets, mem_remWorkerTask] at kept
            exact absurd rfl kept.2
          · rintro ⟨_, left⟩
            rw [left List.mem_cons_self] at removed
            cases removed
          · rintro (absent | left)
            · exact absurd List.mem_cons_self absent
            · rw [left] at removed
              cases removed
        · rw [others task same, sets, mem_remWorkerTask] at members'
          rw [others task same] at tasks'
          refine ⟨members'.trans ⟨?_, ?_⟩, ?_⟩
          · rintro ⟨⟨member, _⟩, left⟩
            exact ⟨member, fun listed => left ((List.mem_cons.mp listed).resolve_left same)⟩
          · rintro ⟨member, left⟩
            exact ⟨⟨member, same⟩, fun later => left (List.mem_cons_of_mem _ later)⟩
          · rintro (absent | left)
            · exact tasks' (Or.inl fun later => absent (List.mem_cons_of_mem _ later))
            · exact tasks' (Or.inr left)

theorem recoverMembers_settled_iff
    {members : List TaskId}
    (whole : ∀ task, task ∈ members ↔ task ∈ s.workerTasks worker)
    (limit : TaskId → Nat)
    (now : Time) :
    (s.recoverMembers worker members limit now).Settled worker ↔ s.Recoverable worker := by
  have spec := s.recoverMembers_spec worker members limit now
  constructor
  · intro settled task member owner
    by_contra passed
    have left : leftBehind worker (s.tasks task) = true := by
      rw [leftBehind, owner, beq_self_eq_true, Bool.true_and]
      cases status : (s.tasks task).status with
      | none =>
          rfl
      | some stored =>
          cases stored <;> simp_all
    obtain ⟨_, open_⟩ := settled task ((spec task).1.mpr ⟨member, fun _ => left⟩)
    rw [(spec task).2 (Or.inr left)] at open_
    rcases open_ with waiting | publishing
    · exact passed (by rw [waiting]; decide)
    · exact passed (by rw [publishing]; decide)
  · intro recoverable task member
    obtain ⟨member, left⟩ := (spec task).1.mp member
    have left := left ((whole task).mpr member)
    rw [(spec task).2 (Or.inr left)]
    rw [leftBehind, Bool.and_eq_true, beq_iff_eq] at left
    obtain ⟨owner, passed⟩ := left
    obtain ⟨notCanceled, notQueued, stored⟩ := recoverable task member owner
    refine ⟨owner, ?_⟩
    cases status : (s.tasks task).status with
    | none =>
        exact absurd status stored
    | some value =>
        cases value <;> simp_all

end Broker

/-! ## Requeues and the attempt counter -/

namespace Op

/-- The operation queued the task again, as its script reports. -/
def requeues (s : Broker) (op : Op) (target : TaskId) : Bool :=
  match op with
  | task (.recoverDead worker recovered retryLimit now) =>
    recovered == target && (s.recoverDeadTask worker recovered retryLimit now).2 == 1
  | task (.requeueAuto requeued cutoff retryLimit now) =>
    requeued == target && (s.requeueStaleAutoWorkflow requeued cutoff retryLimit now).2.1 == 1
  | _ => false

/-- Both requeueing scripts run with this limit for the task. -/
def usesLimit (limit : Nat) (target : TaskId) (op : Op) : Prop :=
  match op with
  | task (.recoverDead _ recovered retryLimit _) => recovered = target → retryLimit = limit
  | task (.requeueAuto requeued _ retryLimit _) => requeued = target → retryLimit = limit
  | _ => True

end Op

/-- The broker and how often each task was queued again. -/
structure RequeueRun where
  broker : Broker
  requeued : TaskId → Nat

namespace RequeueRun

/-- Nothing was queued again yet. -/
def start (s : Broker) : RequeueRun :=
  ⟨s, fun _ => 0⟩

/-- One broker call, with its requeue counted. -/
def step (r : RequeueRun) (op : Op) : RequeueRun where
  broker := r.broker.step op
  requeued := fun task => if op.requeues r.broker task then r.requeued task + 1 else r.requeued task

end RequeueRun

/-- The stored attempt counter; an absent one reads as zero. -/
def TaskHash.attempts (task : TaskHash) : Nat :=
  task.attempt.getD 0

/--
No admission request carries the id of a task that was already queued again:
an admission resets the attempt counter.
-/
def AdmitsUncounted (task : TaskId) (s : Broker) (op : Op) : Prop :=
  op.requests task → (s.tasks task).attempts = 0

namespace Broker

variable (s : Broker)

theorem retryDeadTask_requeued
    {worker : WorkerId} {task : TaskId} {retryLimit : Nat} {now : Time}
    (requeued : (s.retryDeadTask worker task retryLimit now).2 = 1) :
    (s.tasks task).attempts < retryLimit ∧
      ((s.retryDeadTask worker task retryLimit now).1.tasks task).attempt =
        some ((s.tasks task).attempts + 1) := by
  unfold retryDeadTask at requeued ⊢
  dsimp only at requeued ⊢
  split at requeued
  · cases requeued
  · rename_i within
    rw [if_neg within]
    refine ⟨by simp only [TaskHash.attempts]; omega, ?_⟩
    split <;> simp [TaskHash.attempts]

theorem recoverDeadTask_requeued
    {worker : WorkerId} {task : TaskId} {retryLimit : Nat} {now : Time}
    (requeued : (s.recoverDeadTask worker task retryLimit now).2 = 1) :
    (s.tasks task).attempts < retryLimit ∧
      ((s.recoverDeadTask worker task retryLimit now).1.tasks task).attempt =
        some ((s.tasks task).attempts + 1) := by
  unfold recoverDeadTask at requeued ⊢
  dsimp only at requeued ⊢
  split at requeued
  · cases requeued
  rename_i owned
  rw [if_neg owned]
  cases status : (s.tasks task).status with
  | none =>
      rw [status] at requeued
      cases requeued
  | some stored =>
      rw [status] at requeued
      cases stored with
      | assigned | running =>
          exact retryDeadTask_requeued s requeued
      | queued | waitingPipeline | pausedByTriage | publishing | completed | failed | canceled =>
          cases requeued

theorem requeueStaleAutoWorkflow_requeued
    {task : TaskId} {cutoff : Time} {retryLimit : Nat} {now : Time}
    (requeued : (s.requeueStaleAutoWorkflow task cutoff retryLimit now).2.1 = 1) :
    (s.tasks task).attempts < retryLimit ∧
      ((s.requeueStaleAutoWorkflow task cutoff retryLimit now).1.tasks task).attempt =
        some ((s.tasks task).attempts + 1) := by
  unfold requeueStaleAutoWorkflow at requeued ⊢
  dsimp only at requeued ⊢
  split at requeued
  · cases requeued
  rename_i due
  rw [if_neg due]
  split at requeued
  · cases requeued
  rename_i auto
  rw [if_neg auto]
  split at requeued
  · cases requeued
  · rename_i within
    rw [if_neg within]
    exact ⟨not_le.mp within, by simp [TaskHash.attempts]⟩

theorem step_requeues
    {op : Op} {task : TaskId}
    (requeued : op.requeues s task = true) :
    ((s.step op).tasks task).attempt = some ((s.tasks task).attempts + 1) := by
  unfold Op.requeues at requeued
  split at requeued
  · rw [Bool.and_eq_true, beq_iff_eq, beq_iff_eq] at requeued
    obtain ⟨rfl, replied⟩ := requeued
    exact (recoverDeadTask_requeued s replied).2
  · rw [Bool.and_eq_true, beq_iff_eq, beq_iff_eq] at requeued
    obtain ⟨rfl, replied⟩ := requeued
    exact (requeueStaleAutoWorkflow_requeued s replied).2
  · cases requeued

theorem requeues_below_limit
    {op : Op} {task : TaskId} {limit : Nat}
    (uses : op.usesLimit limit task)
    (requeued : op.requeues s task = true) :
    (s.tasks task).attempts < limit := by
  unfold Op.requeues at requeued
  split at requeued
  · rw [Bool.and_eq_true, beq_iff_eq, beq_iff_eq] at requeued
    obtain ⟨rfl, replied⟩ := requeued
    rw [← uses rfl]
    exact (recoverDeadTask_requeued s replied).1
  · rw [Bool.and_eq_true, beq_iff_eq, beq_iff_eq] at requeued
    obtain ⟨rfl, replied⟩ := requeued
    rw [← uses rfl]
    exact (requeueStaleAutoWorkflow_requeued s replied).1
  · cases requeued

theorem recoverDeadTask_attempts
    (worker : WorkerId) (task : TaskId) (retryLimit : Nat) (now : Time) :
    (s.tasks task).attempts ≤
      ((s.recoverDeadTask worker task retryLimit now).1.tasks task).attempts := by
  have retried : (s.tasks task).attempts ≤
      ((s.retryDeadTask worker task retryLimit now).1.tasks task).attempts := by
    unfold retryDeadTask
    dsimp only
    split
    · simp [TaskHash.attempts]
    · split <;> simp [TaskHash.attempts]
  unfold recoverDeadTask
  dsimp only
  repeat' split
  all_goals first
    | exact retried
    | exact le_rfl

theorem requeueStaleAutoWorkflow_attempts
    (task : TaskId) (cutoff : Time) (retryLimit : Nat) (now : Time) :
    (s.tasks task).attempts ≤
      ((s.requeueStaleAutoWorkflow task cutoff retryLimit now).1.tasks task).attempts := by
  unfold requeueStaleAutoWorkflow
  dsimp only
  repeat' split
  all_goals simp [TaskHash.attempts]

theorem attempts_of_absent
    {task : TaskId}
    (absent : (s.tasks task).exists_ = false) :
    (s.tasks task).attempts = 0 := by
  have missing : s.tasks task = {} := by simpa [TaskHash.exists_] using absent
  rw [missing]
  rfl

theorem step_attempts
    (op : Op) (task : TaskId)
    (uncounted : AdmitsUncounted task s op) :
    (s.tasks task).attempts ≤ ((s.step op).tasks task).attempts := by
  by_cases counts : op.counts s task
  · cases op with
    | task op =>
        cases op with
        | requeueAuto requeued cutoff retryLimit now =>
            obtain rfl : requeued = task := counts
            exact requeueStaleAutoWorkflow_attempts s requeued cutoff retryLimit now
        | recoverDead worker recovered retryLimit now =>
            obtain rfl : recovered = task := counts
            exact recoverDeadTask_attempts s worker recovered retryLimit now
        | _ =>
            cases counts
    | rollback op =>
        cases op with
        | admitRollback args now =>
            rw [attempts_of_absent s counts.2]
            exact Nat.zero_le _
        | admitReport args now =>
            rw [attempts_of_absent s counts.2]
            exact Nat.zero_le _
        | complete | setReportState | completeReport =>
            cases counts
    | admission op =>
        rw [uncounted counts]
        exact Nat.zero_le _
    | lease | effect | manifest | auto | pipeline | card | expiry =>
        cases counts
  · have same := ((s.step_workKept op).hashes task).attempt counts
    rw [TaskHash.attempts, TaskHash.attempts, same]

end Broker

namespace RequeueRun

/-- The task was queued again at most as often as its counter and the limit say. -/
def Counted (limit : Nat) (task : TaskId) (r : RequeueRun) : Prop :=
  r.requeued task ≤ (r.broker.tasks task).attempts ∧ r.requeued task ≤ limit

theorem step_counted
    {limit : Nat} {task : TaskId} {r : RequeueRun} {op : Op}
    (counted : Counted limit task r)
    (uses : op.usesLimit limit task)
    (uncounted : AdmitsUncounted task r.broker op) :
    Counted limit task (r.step op) := by
  obtain ⟨below, within⟩ := counted
  have grown := r.broker.step_attempts op task uncounted
  cases requeued : op.requeues r.broker task with
  | true =>
      have raised := r.broker.step_requeues requeued
      have room := r.broker.requeues_below_limit uses requeued
      have stepped : (r.step op).requeued task = r.requeued task + 1 := if_pos requeued
      have counter : ((r.step op).broker.tasks task).attempts =
          (r.broker.tasks task).attempts + 1 := by
        change ((r.broker.step op).tasks task).attempts = _
        rw [TaskHash.attempts, raised]
        rfl
      constructor
      · rw [stepped, counter]
        omega
      · rw [stepped]
        omega
  | false =>
      have stepped : (r.step op).requeued task = r.requeued task := by
        change (if op.requeues r.broker task then _ else _) = _
        rw [requeued, if_neg Bool.false_ne_true]
      constructor
      · rw [stepped]
        exact below.trans grown
      · rw [stepped]
        exact within

end RequeueRun

/-- Recovery settles a dead worker's set exactly when it has no canceled or queued task of its own.
Every requeue is counted, and the limit holds unless an id is used again. -/
theorem dead_worker_recovery_settles (limit : Nat) :
    (∀ (s : Broker) (worker : WorkerId) (members : List TaskId) (limits : TaskId → Nat)
      (now : Time), (∀ task, task ∈ members ↔ task ∈ s.workerTasks worker) →
        ((s.recoverMembers worker members limits now).Settled worker ↔
          s.Recoverable worker)) ∧
      (∀ (s : Broker) (op : Op) (task : TaskId), op.requeues s task = true →
        ((s.step op).tasks task).attempt = some ((s.tasks task).attempts + 1)) ∧
      ∀ (s : Broker) (task : TaskId) (r : RequeueRun),
        Reaches RequeueRun.step
          (fun r op => op.usesLimit limit task ∧ AdmitsUncounted task r.broker op)
          (RequeueRun.start s) r →
        r.requeued task ≤ limit := by
  refine ⟨?_, ?_, ?_⟩
  · intro s worker members limits now whole
    exact s.recoverMembers_settled_iff worker whole limits now
  · intro s op task requeued
    exact s.step_requeues requeued
  · intro s task r run
    have initial : RequeueRun.Counted limit task (RequeueRun.start s) :=
      ⟨Nat.zero_le _, Nat.zero_le _⟩
    have counted := run.invariant (RequeueRun.Counted limit task)
      (fun _ _ counted allowed => RequeueRun.step_counted counted allowed.1 allowed.2) initial
    exact counted.2

namespace RecoverySample

open Sample

def unitTests : TaskId := ⟨"unit-tests", by decide⟩

def review : TaskId := ⟨"creation-review", by decide⟩

def lease : MrLease := ⟨mr, workerA, 1⟩

/-- The card's items once the repair has succeeded. -/
def repaired : List RepairItem :=
  items.map fun item => { item with status := .succeeded }

/-- The click that adds unit tests to the repaired merge request. -/
def unitTestClick : PostRepairUtArgs where
  envelope := envelope unitTests .postRepairUt "/repair-ut" "feishu-card:ut"
  mr := mr
  envelopeMr := rfl
  envelopeKind := rfl
  repairTask := repair
  cardId := "card"
  openMessageId := "message"
  senderId := "author"
  pipelineId := 11
  pipelineSha := "sha"
  revision := 2
  coverageThreshold := 80
  coverageBefore := none

/-- Worker A repairs a merge request and then runs its unit-test task. -/
def unitTestOps : List Op :=
  [.card (.save mr "card" 11 card),
    .admission (.enqueueWithCard (click repair "format" [] 0)),
    .lease (.claim mr workerA),
    .task (.assign repair (some lease) workerA 2),
    .task (.transition repair .start (some lease) {} 3),
    .task (.transition repair .publish (some lease) {} 4),
    .task (.transition repair .complete (some lease) {} 5),
    .card (.reconcile repair "card" 1
      { items := repaired, state := .repairSucceeded, statusMarkdown := ""
        currentPipelineId := 11, currentPipelineSha := "sha", revision := 2 } notice 6),
    .auto (.resume repair lease 7),
    .admission (.postRepairUt unitTestClick),
    .task (.assign unitTests (some lease) workerA 8),
    .task (.transition unitTests .start (some lease) {} 9)]

/-- The unit-test task runs on worker A; the repair is completed. -/
def running : Broker :=
  unitTestOps.foldl Broker.step Broker.empty

/-- The user cancels the unit tests before any commit. -/
def canceled : Broker :=
  (running.step (.task (.requestUtCancel unitTests ⟨mr, "card", "message", "author", 3⟩ 10))).step
    (.task (.transition unitTests (.cancelUnitTests .canceled (Or.inr rfl)) (some lease) {} 11))

/-- The creation review is queued, and queued again by the stale-queue script. -/
def reviewOps : List Op :=
  [.admission (.enqueue ⟨envelope review .autoWorkflow "" "auto", true⟩),
    .task (.requeueAuto review 5 1 6)]

/-- Its deduplication key expires before the review is requested once more. -/
def reviewAgainOps : List Op :=
  reviewOps ++ .expiry (.dedup "auto") :: reviewOps

end RecoverySample

open RecoverySample in
theorem running_unit_tests_recovered :
    running.workerTasks Sample.workerA = [Sample.repair, unitTests] ∧
      (running.recoverMembers Sample.workerA [Sample.repair, unitTests] (fun _ => 3)
        20).Settled Sample.workerA ∧
      (reviewOps.foldl RequeueRun.step (RequeueRun.start Broker.empty)).requeued review = 1 ∧
      (reviewOps.foldl RequeueRun.step (RequeueRun.start Broker.empty)).requeued review ≤ 1 := by
  have members : running.workerTasks Sample.workerA = [Sample.repair, unitTests] := by
    decide +kernel
  have recoverable : running.Recoverable Sample.workerA := by
    intro task member _
    rw [members] at member
    rcases List.mem_cons.mp member with rfl | member
    · decide +kernel
    · rw [List.mem_singleton.mp member]
      decide +kernel
  have run : Reaches RequeueRun.step
      (fun r op => op.usesLimit 1 review ∧ AdmitsUncounted review r.broker op)
      (RequeueRun.start Broker.empty)
      (reviewOps.foldl RequeueRun.step (RequeueRun.start Broker.empty)) :=
    Reaches.of_follows ⟨⟨trivial, fun _ => by decide +kernel⟩,
      ⟨fun _ => rfl, fun never => never.elim⟩, trivial⟩
  obtain ⟨settles, _, bounded⟩ := dead_worker_recovery_settles 1
  exact ⟨members,
    (settles running Sample.workerA _ (fun _ => 3) 20 fun _ => by rw [members]).mpr recoverable,
    by decide +kernel, bounded Broker.empty review _ run⟩

open RecoverySample in
/--
A canceled unit-test task stays in its dead worker's set for ever, and a review
that is requested again under its own id is queued again beyond the limit.
-/
theorem canceled_unit_tests_left_behind :
    (Reaches Broker.step (fun _ _ => True) Broker.empty canceled ∧
      canceled.workerTasks Sample.workerA = [Sample.repair, unitTests] ∧
      ¬(canceled.recoverMembers Sample.workerA [Sample.repair, unitTests] (fun _ => 3)
        20).Settled Sample.workerA) ∧
      Reaches RequeueRun.step (fun _ op => op.usesLimit 1 review) (RequeueRun.start Broker.empty)
        (reviewAgainOps.foldl RequeueRun.step (RequeueRun.start Broker.empty)) ∧
      (reviewAgainOps.foldl RequeueRun.step
        (RequeueRun.start Broker.empty)).requeued review = 2 := by
  refine ⟨⟨?_, by decide +kernel, ?_⟩, ?_, by decide +kernel⟩
  · have run : Reaches Broker.step (fun _ _ => True) Broker.empty running :=
      Reaches.of_follows ⟨trivial, trivial, trivial, trivial, trivial, trivial, trivial, trivial,
        trivial, trivial, trivial, trivial, trivial⟩
    exact (run.snoc _ trivial).snoc _ trivial
  · intro settled
    obtain ⟨_, open_⟩ := settled unitTests (by decide +kernel)
    revert open_
    decide +kernel
  · exact Reaches.of_follows ⟨trivial, fun _ => rfl, trivial, trivial, fun _ => rfl, trivial⟩

end MrAgent
