import Mathlib
import MrAgent.BrokerModel

namespace MrAgent

/-!
# Redis state of the broker

Every Redis key family that a script of `pr_agent/distributed/broker.py`
touches is one field of `Broker`. Hashes are records of optional fields, so an
absent key is the record with no field set and `EXISTS` asks whether some
field is set. Key expiry is not implicit: the operations that model it are
explicit steps. Streams hand out message ids from one growing clock.
-/

/-- The cancellation fields of a task hash. -/
structure CancelFields where
  requested : Option Bool := none
  requestedBy : Option String := none
  requestedAt : Option Time := none
  reason : Option String := none
deriving DecidableEq, Inhabited

/-- The delivery bookkeeping fields of a task hash. -/
structure DeliveryFields where
  attempt : Option Nat := none
  error : Option String := none
  messageId : Option Nat := none
  failedAt : Option Time := none
deriving DecidableEq, Inhabited

/-- The `pipeline_*` fields of a task hash. -/
structure PipelineFields where
  projectId : Option String := none
  sha : Option String := none
  waitRegisteredAt : Option Time := none
  eventKey : Option WaitKey := none
  waiterKey : Option WaitKey := none
  attemptId : Option String := none
  pipelineId : Option Nat := none
  resumeQueued : Option PipelineEvent := none
  resumeQueuedAttemptId : Option String := none
  resumeClaimedAttemptId : Option String := none
  resumeClaimedEvent : Option PipelineEvent := none
deriving DecidableEq, Inhabited

/-- The cursor of an automatic workflow. -/
structure AutoFields where
  nextCommandIndex : Option Nat := none
  completedCommands : Option (List String) := none
  workflowHeadSha : Option String := none
  pausedByTriageTaskId : Option TaskId := none
deriving DecidableEq, Inhabited

/-- `admission_state` of a task. -/
inductive AdmissionState where
  | preparing
  | enqueued
deriving DecidableEq

/-- The hash stored under `task:<id>`. -/
structure TaskHash where
  payload : Option TaskEnvelope := none
  status : Option TaskStatus := none
  attempt : Option Nat := none
  createdAt : Option Time := none
  updatedAt : Option Time := none
  heartbeatAt : Option Time := none
  admissionState : Option AdmissionState := none
  admissionContext : Option AdmissionContext := none
  ingressMessageId : Option Nat := none
  workerId : Option WorkerId := none
  fencingToken : Option Nat := none
  result : Option String := none
  error : Option String := none
  waitKind : Option String := none
  waitIdentity : Option String := none
  activeEffect : Option String := none
  repairCommitManifest : Option RepairCommitManifest := none
  repairRollbackState : Option RepairRollbackState := none
  pipelineRepairState : Option PipelineRepairState := none
  finalRepairReportState : Option FinalRepairReportState := none
  cancel : CancelFields := {}
  delivery : DeliveryFields := {}
  pipeline : PipelineFields := {}
  auto : AutoFields := {}
deriving DecidableEq, Inhabited

namespace TaskHash

/-- `EXISTS task:<id>`: the hash has some field. -/
def exists_ (task : TaskHash) : Bool :=
  decide (task ≠ {})

/-- The status is stored and terminal, as the Lua guards test it. -/
def terminal (task : TaskHash) : Bool :=
  match task.status with
  | some status => status.terminal
  | none => false

/--
The admission of a queued task stopped between its writes: the hash is not
marked `enqueued`, or no ingress message is recorded.
-/
def admissionIncomplete (task : TaskHash) : Bool :=
  task.status == some .queued &&
    (task.admissionState != some .enqueued || task.ingressMessageId.isNone)

/-- `HGET ... 'cancel_requested' == '1'`. -/
def cancelRequested (task : TaskHash) : Bool :=
  task.cancel.requested == some true

end TaskHash

/-- The hash stored under `feishu:card:<id>`. -/
structure CardHash where
  cardId : Option CardId := none
  mrUrl : Option String := none
  projectId : Option String := none
  mrIid : Option Nat := none
  pipelineId : Option Nat := none
  pipelineSha : Option String := none
  currentPipelineId : Option Nat := none
  currentPipelineSha : Option String := none
  state : Option TriageCardState := none
  statusMarkdown : Option String := none
  openMessageId : Option String := none
  receiveId : Option String := none
  taskId : Option TaskId := none
  activeTaskId : Option TaskId := none
  activeCategory : Option String := none
  repairItems : Option (List RepairItem) := none
  revision : Option Nat := none
  postRepairUt : Option PostRepairUTState := none
  fallbackSent : Option Bool := none
  rollbackRepairTaskId : Option TaskId := none
  rollbackCommitCount : Option Nat := none
  rollbackTaskId : Option TaskId := none
  rollbackStatus : Option RepairRollbackStatus := none
  rollbackCommitSha : Option String := none
  rollbackTrigger : Option RollbackTrigger := none
  updatedAt : Option Time := none
deriving DecidableEq, Inhabited

namespace CardHash

/-- `EXISTS feishu:card:<id>`: the hash has some field. -/
def exists_ (card : CardHash) : Bool :=
  decide (card ≠ {})

/-- `current_pipeline_id`, falling back to `pipeline_id`. -/
def effectivePipelineId (card : CardHash) : Option Nat :=
  card.currentPipelineId <|> card.pipelineId

/-- `current_pipeline_sha`, falling back to `pipeline_sha`. -/
def effectivePipelineSha (card : CardHash) : String :=
  (card.currentPipelineSha <|> card.pipelineSha).getD ""

end CardHash

/-- Status of a recorded external effect. -/
inductive EffectStatus where
  | started
  | completed
deriving DecidableEq

/-- The hash stored under `effect:<key>`. -/
structure EffectHash where
  status : Option EffectStatus := none
  metadata : Option String := none
  result : Option String := none
  createdAt : Option Time := none
  updatedAt : Option Time := none
deriving DecidableEq, Inhabited

/-- The broker's whole Redis state. -/
structure Broker where
  tasks : TaskId → TaskHash
  cards : CardId → CardHash
  leases : MrKey → Option (WorkerId × Nat)
  fences : MrKey → Nat
  gates : MrScope → Option TaskId
  pausedAuto : MrScope → Option TaskId
  latestCard : MrScope → Option CardId
  latestPipeline : MrScope → Option Nat
  mrTasks : MrScope → List TaskId
  dedup : String → Option TaskId
  activeRepairs : TaskId → Option Time
  activeReportTasks : TaskId → Option Time
  pipelineWaiting : TaskId → Option Time
  events : WaitKey → Option PipelineEvent
  waiters : WaitKey → List TaskId
  ingress : List (Nat × TaskId)
  reportIngress : List (Nat × TaskId)
  inbox : WorkerId → List InboxMessage
  workerTasks : WorkerId → List TaskId
  taskCards : TaskId → Option CardId
  effects : String → EffectHash
  reportInputs : TaskId → Option String
  notifications : List NotificationEnvelope
  notificationDedup : List String
  streamClock : Nat

/-- The empty Redis database. -/
def Broker.empty : Broker where
  tasks := fun _ => {}
  cards := fun _ => {}
  leases := fun _ => none
  fences := fun _ => 0
  gates := fun _ => none
  pausedAuto := fun _ => none
  latestCard := fun _ => none
  latestPipeline := fun _ => none
  mrTasks := fun _ => []
  dedup := fun _ => none
  activeRepairs := fun _ => none
  activeReportTasks := fun _ => none
  pipelineWaiting := fun _ => none
  events := fun _ => none
  waiters := fun _ => []
  ingress := []
  reportIngress := []
  inbox := fun _ => []
  workerTasks := fun _ => []
  taskCards := fun _ => none
  effects := fun _ => {}
  reportInputs := fun _ => none
  notifications := []
  notificationDedup := []
  streamClock := 0

/-- `SADD`: insert a member once. -/
def sadd {α : Type} [DecidableEq α] (members : List α) (member : α) : List α :=
  if member ∈ members then members else members ++ [member]

/-- `SREM`: remove a member. -/
def srem {α : Type} [DecidableEq α] (members : List α) (member : α) : List α :=
  members.filter (· ≠ member)

@[simp]
theorem mem_sadd
    {α : Type} [DecidableEq α]
    (members : List α)
    (member candidate : α) :
    candidate ∈ sadd members member ↔ candidate ∈ members ∨ candidate = member := by
  unfold sadd
  split
  · rename_i present
    constructor
    · exact Or.inl
    · rintro (old | rfl)
      · exact old
      · exact present
  · simp

@[simp]
theorem mem_srem
    {α : Type} [DecidableEq α]
    (members : List α)
    (member candidate : α) :
    candidate ∈ srem members member ↔ candidate ∈ members ∧ candidate ≠ member := by
  simp [srem]

namespace Broker

variable (s : Broker)

/-- `HSET`/`HDEL` on a task hash. -/
@[simps -fullyApplied]
def updTask (task : TaskId) (change : TaskHash → TaskHash) : Broker :=
  { s with tasks := Function.update s.tasks task (change (s.tasks task)) }

/-- `HSET` on a card hash. -/
@[simps -fullyApplied]
def updCard (card : CardId) (change : CardHash → CardHash) : Broker :=
  { s with cards := Function.update s.cards card (change (s.cards card)) }

/-- `SET` or `DEL` of the triage gate of a merge request. -/
@[simps -fullyApplied]
def setGate (scope : MrScope) (holder : Option TaskId) : Broker :=
  { s with gates := Function.update s.gates scope holder }

/-- `SET` or `DEL` of the paused-auto pointer of a merge request. -/
@[simps -fullyApplied]
def setPausedAuto (scope : MrScope) (task : Option TaskId) : Broker :=
  { s with pausedAuto := Function.update s.pausedAuto scope task }

/-- `SET` or `DEL` of a deduplication key. -/
@[simps -fullyApplied]
def setDedup (key : String) (task : Option TaskId) : Broker :=
  { s with dedup := Function.update s.dedup key task }

/-- `SADD` on the task set of a merge request. -/
@[simps -fullyApplied]
def addMrTask (scope : MrScope) (task : TaskId) : Broker :=
  { s with mrTasks := Function.update s.mrTasks scope (sadd (s.mrTasks scope) task) }

/-- `SREM` on the task set of a merge request. -/
@[simps -fullyApplied]
def remMrTask (scope : MrScope) (task : TaskId) : Broker :=
  { s with mrTasks := Function.update s.mrTasks scope (srem (s.mrTasks scope) task) }

/-- `ZADD` or `ZREM` on the active repairs index. -/
@[simps -fullyApplied]
def setActiveRepair (task : TaskId) (score : Option Time) : Broker :=
  { s with activeRepairs := Function.update s.activeRepairs task score }

/-- `ZADD` or `ZREM` on the active report index. -/
@[simps -fullyApplied]
def setActiveReport (task : TaskId) (score : Option Time) : Broker :=
  { s with activeReportTasks := Function.update s.activeReportTasks task score }

/-- `ZADD` or `ZREM` on the pipeline-waiting index. -/
@[simps -fullyApplied]
def setPipelineWaiting (task : TaskId) (score : Option Time) : Broker :=
  { s with pipelineWaiting := Function.update s.pipelineWaiting task score }

/-- `SET` of a cached pipeline event. -/
@[simps -fullyApplied]
def setEvent (key : WaitKey) (event : PipelineEvent) : Broker :=
  { s with events := Function.update s.events key (some event) }

/-- `SADD` on a waiter set. -/
@[simps -fullyApplied]
def addWaiter (key : WaitKey) (task : TaskId) : Broker :=
  { s with waiters := Function.update s.waiters key (sadd (s.waiters key) task) }

/-- `SREM` on a waiter set; the scripts delete the key with its last member. -/
@[simps -fullyApplied]
def remWaiter (key : WaitKey) (task : TaskId) : Broker :=
  { s with waiters := Function.update s.waiters key (srem (s.waiters key) task) }

/-- `SADD` on a worker's task set. -/
@[simps -fullyApplied]
def addWorkerTask (worker : WorkerId) (task : TaskId) : Broker :=
  { s with
    workerTasks := Function.update s.workerTasks worker (sadd (s.workerTasks worker) task) }

/-- `SREM` on a worker's task set. -/
@[simps -fullyApplied]
def remWorkerTask (worker : WorkerId) (task : TaskId) : Broker :=
  { s with
    workerTasks := Function.update s.workerTasks worker (srem (s.workerTasks worker) task) }

/-- `SET` of the task to card binding. -/
@[simps -fullyApplied]
def setTaskCard (task : TaskId) (card : CardId) : Broker :=
  { s with taskCards := Function.update s.taskCards task (some card) }

/-- The id that the next stream entry receives. -/
def nextMessageId : Nat :=
  s.streamClock + 1

/-- `XADD` on the ingress stream. -/
@[simps -fullyApplied]
def pushIngress (task : TaskId) : Broker :=
  { s with
    ingress := s.ingress ++ [(s.nextMessageId, task)]
    streamClock := s.nextMessageId }

/-- `XADD` on the report ingress stream. -/
@[simps -fullyApplied]
def pushReportIngress (task : TaskId) : Broker :=
  { s with
    reportIngress := s.reportIngress ++ [(s.nextMessageId, task)]
    streamClock := s.nextMessageId }

/-- `XADD` on a worker's inbox. -/
@[simps -fullyApplied]
def pushInbox
    (worker : WorkerId)
    (task : TaskId)
    (kind : DeliveryKind)
    (payload : Option PipelineEvent) : Broker :=
  { s with
    inbox :=
      Function.update s.inbox worker
        (s.inbox worker ++ [⟨s.nextMessageId, task, kind, payload⟩])
    streamClock := s.nextMessageId }

/--
The notification tail shared by the card scripts: `SET dedup NX`, then the
notification hash and its stream entry.
-/
@[simps -fullyApplied]
def notify (notification : NotificationEnvelope) : Broker :=
  { s with
    notifications :=
      if notification.notificationId ∈ s.notificationDedup then s.notifications
      else s.notifications ++ [notification]
    notificationDedup := sadd s.notificationDedup notification.notificationId }

/-- `SREM worker:<id>:tasks` for the worker that owns the task, if any. -/
def dropOwnerTask (owner : Option WorkerId) (task : TaskId) : Broker :=
  match owner with
  | some worker => s.remWorkerTask worker task
  | none => s

section DropOwnerTask

variable (owner : Option WorkerId) (task : TaskId)

@[simp]
theorem dropOwnerTask_tasks : (s.dropOwnerTask owner task).tasks = s.tasks := by
  cases owner <;> rfl

@[simp]
theorem dropOwnerTask_leases : (s.dropOwnerTask owner task).leases = s.leases := by
  cases owner <;> rfl

@[simp]
theorem dropOwnerTask_fences : (s.dropOwnerTask owner task).fences = s.fences := by
  cases owner <;> rfl

@[simp]
theorem dropOwnerTask_gates : (s.dropOwnerTask owner task).gates = s.gates := by
  cases owner <;> rfl

@[simp]
theorem dropOwnerTask_pausedAuto : (s.dropOwnerTask owner task).pausedAuto = s.pausedAuto := by
  cases owner <;> rfl

end DropOwnerTask

/-- The lease key of a merge request holds exactly this owner and token. -/
def holds (lease : MrLease) : Bool :=
  s.leases lease.mr == some (lease.workerId, lease.fencingToken)

/--
The ownership check the lease-checked scripts embed. A caller without a lease
passes an empty worker id and skips it.
-/
def leaseOk (lease : Option MrLease) : Bool :=
  match lease with
  | some held => s.holds held
  | none => true

end Broker

end MrAgent
