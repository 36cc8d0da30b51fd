import MrAgent.BrokerState

namespace MrAgent

/-!
# Task lifecycle scripts

Assignment, the guarded status transition, heartbeats, stale-task recovery,
worker-death recovery and cancellation.
-/

/-- The extra hash fields that callers of `transition_task` pass. -/
structure TransitionFields where
  result : Option String := none
  error : Option String := none
  waitKind : Option String := none
  waitIdentity : Option String := none
  pipelineRepairState : Option PipelineRepairState := none
deriving DecidableEq

/-- The field loop at the end of `TRANSITION_TASK_LUA`. -/
def TransitionFields.write (fields : TransitionFields) (task : TaskHash) : TaskHash :=
  { task with
    result := fields.result <|> task.result
    error := fields.error <|> task.error
    waitKind := fields.waitKind <|> task.waitKind
    waitIdentity := fields.waitIdentity <|> task.waitIdentity
    pipelineRepairState := fields.pipelineRepairState <|> task.pipelineRepairState }

namespace Broker

/-- `TRANSITION_TASK_LUA`. -/
def transitionTask
    (s : Broker)
    (task : TaskId)
    (expected : List TaskStatus)
    (target : TaskStatus)
    (lease : Option MrLease)
    (fields : TransitionFields)
    (now : Time) : Broker × Int :=
  match (s.tasks task).status with
  | none => (s, 0)
  | some current =>
    if current ∉ expected then (s, 0)
    else if !s.leaseOk lease then (s, -1)
    else
      let s := s.updTask task fun t =>
        { t with status := some target, updatedAt := some now }
      let s := if target.terminal then s.setActiveRepair task none else s
      (s.updTask task fields.write, 1)

/-- `ASSIGN_TASK_LUA`; without a lease the stored fencing token is empty. -/
def assignTask
    (s : Broker)
    (task : TaskId)
    (lease : Option MrLease)
    (worker : WorkerId)
    (now : Time) : Broker × Int :=
  if (s.tasks task).status ≠ some .queued then (s, 0)
  else if !s.leaseOk lease then (s, -1)
  else
    let s := s.updTask task fun t =>
      { t with
        status := some .assigned
        workerId := some worker
        fencingToken := lease.map (·.fencingToken)
        updatedAt := some now }
    let s := s.addWorkerTask worker task
    (s.pushInbox worker task .execute none, 1)

/-- `assign_to_worker`: the lease must name the worker that receives the task. -/
def assignToWorker
    (s : Broker)
    (task : TaskId)
    (lease : Option MrLease)
    (worker : WorkerId)
    (now : Time) : Broker × Int :=
  match lease with
  | some held => if held.workerId ≠ worker then (s, -1) else s.assignTask task lease worker now
  | none => s.assignTask task none worker now

/-- `HEARTBEAT_TASK_LUA`. -/
def heartbeatTask
    (s : Broker)
    (task : TaskId)
    (worker : WorkerId)
    (token : Option Nat)
    (now : Time) : Broker × Int :=
  let stored := s.tasks task
  if (stored.status ≠ some .running && stored.status ≠ some .publishing) ||
      stored.workerId ≠ some worker || stored.fencingToken ≠ token then (s, 0)
  else (s.updTask task fun t => { t with heartbeatAt := some now }, 1)

/-- `FAIL_STALE_RUNNING_TASK_LUA`. -/
def failStaleRunningTask
    (s : Broker)
    (task : TaskId)
    (lease : MrLease)
    (heartbeatCutoff : Time)
    (error : String)
    (now : Time) : Broker × Int :=
  let stored := s.tasks task
  if stored.status ≠ some .running && stored.status ≠ some .publishing then (s, 0)
  else if stored.workerId ≠ some lease.workerId ||
      stored.fencingToken ≠ some lease.fencingToken || !s.holds lease then (s, -1)
  else if stored.cancelRequested then (s, 0)
  else if heartbeatCutoff < (stored.heartbeatAt <|> stored.updatedAt).getD 0 then (s, 0)
  else
    let s := s.updTask task fun t =>
      { t with status := some .failed, error := some error, updatedAt := some now }
    (s.setActiveRepair task none, 1)

/-- `REQUEUE_STALE_REPAIR_LUA`; `expected` is the status the caller had read. -/
def requeueStaleRepair
    (s : Broker)
    (task : TaskId)
    (expected : TaskStatus)
    (cutoff now : Time) : Broker × Int :=
  let stored := s.tasks task
  if stored.status ≠ some expected || cutoff < stored.updatedAt.getD 0 then (s, 0)
  else
    let s :=
      if expected = .assigned then
        let s := s.dropOwnerTask stored.workerId task
        s.updTask task fun t =>
          { t with
            status := some .queued
            updatedAt := some now
            workerId := none
            fencingToken := none }
      else s
    let s := s.pushIngress task
    (s.updTask task fun t => { t with updatedAt := some now }, 1)

/-- `REQUEUE_STALE_AUTO_WORKFLOW_LUA`. -/
def requeueStaleAutoWorkflow
    (s : Broker)
    (task : TaskId)
    (cutoff : Time)
    (retryLimit : Nat)
    (now : Time) : Broker × Int × Nat :=
  let stored := s.tasks task
  let attempt := stored.attempt.getD 0
  if stored.status ≠ some .queued || cutoff < stored.updatedAt.getD 0 then (s, 0, attempt)
  else if stored.payload.map (·.kind) ≠ some .autoWorkflow then (s, 0, attempt)
  else if retryLimit ≤ attempt then
    (s.updTask task fun t =>
        { t with
          status := some .failed
          error := some "QueueStartupTimeout"
          updatedAt := some now },
      2, attempt)
  else
    let ingressId := s.nextMessageId
    let s := s.pushIngress task
    (s.updTask task fun t =>
        { t with
          attempt := some (attempt + 1)
          updatedAt := some now
          admissionState := some .enqueued
          ingressMessageId := some ingressId },
      1, attempt + 1)

/--
The retry branch of `RECOVER_DEAD_TASK_LUA`: an unfinished task is queued again
until the retry limit, a report task on the report stream.
-/
def retryDeadTask
    (s : Broker)
    (worker : WorkerId)
    (task : TaskId)
    (retryLimit : Nat)
    (now : Time) : Broker × Int :=
  let stored := s.tasks task
  let attempt := stored.attempt.getD 0 + 1
  if retryLimit < attempt then
    let s := s.updTask task fun t =>
      { t with
        status := some .failed
        attempt := some attempt
        error := some "worker lost and retry limit exceeded"
        updatedAt := some now }
    (s.remWorkerTask worker task, 2)
  else
    let s := s.updTask task fun t =>
      { t with
        status := some .queued
        attempt := some attempt
        updatedAt := some now
        workerId := none
        fencingToken := none }
    let s :=
      if stored.payload.map (·.kind) = some .repairReport then s.pushReportIngress task
      else s.pushIngress task
    (s.remWorkerTask worker task, 1)

/-- `RECOVER_DEAD_TASK_LUA`; the caller passes the retry limit of the task's kind. -/
def recoverDeadTask
    (s : Broker)
    (worker : WorkerId)
    (task : TaskId)
    (retryLimit : Nat)
    (now : Time) : Broker × Int :=
  let stored := s.tasks task
  if stored.workerId ≠ some worker then (s.remWorkerTask worker task, 0)
  else
    match stored.status with
    | some .completed | some .failed => (s.remWorkerTask worker task, 0)
    | some .assigned | some .running => s.retryDeadTask worker task retryLimit now
    | some .waitingPipeline => (s, 3)
    | some .publishing => (s, 4)
    | some .pausedByTriage => (s.remWorkerTask worker task, 5)
    | some .queued | some .canceled | none => (s, 0)

/--
`TRANSFER_ORPHANED_TASK_LUA`. The message carries the event the caller found in
the cache; the resume markers of the task are not touched.
-/
def transferOrphanedTask
    (s : Broker)
    (task : TaskId)
    (oldWorker : WorkerId)
    (lease : MrLease)
    (event : Option PipelineEvent)
    (now : Time) : Broker × Int :=
  let stored := s.tasks task
  if stored.workerId ≠ some oldWorker ||
      (stored.status ≠ some .waitingPipeline && stored.status ≠ some .publishing) then (s, 0)
  else if !s.holds lease then (s, -1)
  else
    let s := s.updTask task fun t =>
      { t with
        workerId := some lease.workerId
        fencingToken := some lease.fencingToken
        updatedAt := some now }
    let s := s.remWorkerTask oldWorker task
    let s := s.addWorkerTask lease.workerId task
    match event with
    | some event =>
      if stored.status = some .waitingPipeline then
        (s.pushInbox lease.workerId task .resumePipeline (some event), 1)
      else (s, 1)
    | none => (s, 1)

/-- `record_delivery_failure`: unconditional bookkeeping on the task hash. -/
def recordDeliveryFailure
    (s : Broker)
    (task : TaskId)
    (messageId : Nat)
    (error : String)
    (now : Time) : Broker :=
  s.updTask task fun t =>
    { t with
      delivery :=
        { attempt := some (t.delivery.attempt.getD 0 + 1)
          error := some error
          messageId := some messageId
          failedAt := some now } }

/-- `ack_worker_inbox`: the message leaves the worker's stream. -/
def ackWorkerInbox (s : Broker) (worker : WorkerId) (messageId : Nat) : Broker :=
  { s with
    inbox := Function.update s.inbox worker
      ((s.inbox worker).filter (·.messageId ≠ messageId)) }

/-- The write of a user's cancel request to the task hash. -/
def markCancelRequested (s : Broker) (task : TaskId) (sender : String) (now : Time) : Broker :=
  s.updTask task fun t =>
    { t with
      cancel :=
        { requested := some true
          requestedBy := some sender
          requestedAt := some now
          reason := some "user_requested" }
      updatedAt := some now }

/-- Card states in which a repair can still be canceled. -/
def cancelableState : TriageCardState → Bool
  | .repairQueued | .repairRunning | .waitingPipeline | .canceling => true
  | _ => false

/-- What a cancel button sends. -/
structure CancelArgs where
  mr : MrKey
  cardId : CardId
  openMessageId : String
  senderId : String
  revision : Nat
deriving DecidableEq

/-- `REQUEST_REPAIR_CANCEL_LUA`. -/
def requestRepairCancel
    (s : Broker)
    (task : TaskId)
    (args : CancelArgs)
    (statusMarkdown : String)
    (notification : NotificationEnvelope)
    (now : Time) : Broker × Int × Option TaskStatus :=
  let stored := s.tasks task
  let card := s.cards args.cardId
  if !stored.exists_ then (s, -1, none)
  else if !card.exists_ then (s, -2, none)
  else if card.openMessageId.getD "" ≠ args.openMessageId ||
      card.receiveId.getD "" ≠ args.senderId ||
      card.revision.getD 0 ≠ args.revision || card.activeTaskId ≠ some task ||
      !(card.state.map cancelableState).getD false then (s, -3, none)
  else if s.gates (some args.mr) ≠ some task then (s, -4, none)
  else if stored.terminal then (s, 0, stored.status)
  else if stored.cancelRequested then (s, 0, stored.status)
  else
    let s := s.markCancelRequested task args.senderId now
    let s := s.updCard args.cardId fun c =>
      { c with
        state := some .canceling
        statusMarkdown := some statusMarkdown
        updatedAt := some now }
    (s.notify notification, 1, stored.status)

/-- `REQUEST_POST_REPAIR_UT_CANCEL_LUA`. -/
def requestPostRepairUtCancel
    (s : Broker)
    (task : TaskId)
    (args : CancelArgs)
    (now : Time) : Broker × Int × Option TaskStatus :=
  let stored := s.tasks task
  let card := s.cards args.cardId
  let ut := card.postRepairUt.getD {}
  if !stored.exists_ || !card.exists_ then (s, -1, none)
  else if card.openMessageId.getD "" ≠ args.openMessageId ||
      card.receiveId.getD "" ≠ args.senderId || card.revision ≠ some args.revision ||
      card.activeTaskId ≠ some task || ut.taskId ≠ some task then (s, -2, none)
  else if s.gates (some args.mr) ≠ some task then (s, -3, none)
  else if stored.terminal then (s, 0, stored.status)
  else if stored.cancelRequested then (s, 0, stored.status)
  else
    let s := s.markCancelRequested task args.senderId now
    let s := s.updCard args.cardId fun c =>
      { c with
        postRepairUt := some
          { ut with
            status := .canceling
            statusMarkdown := "正在取消补测并检查本次补测提交" }
        revision := some (args.revision + 1)
        updatedAt := some now }
    (s, 1, stored.status)

/-- What `finalize_repair_cancel` computes from the card before its script. -/
structure FinalizeCancelArgs where
  mr : MrKey
  cardId : CardId
  items : List RepairItem
  statusMarkdown : String
  revision : Nat
  notification : NotificationEnvelope
deriving DecidableEq

/-- Leave the waiter set the task registered in, if any. -/
def dropWaiter (s : Broker) (task : TaskId) : Broker :=
  match (s.tasks task).pipeline.waiterKey with
  | some key => s.remWaiter key task
  | none => s

section DropWaiter

variable (s : Broker) (task : TaskId)

@[simp]
theorem dropWaiter_tasks : (s.dropWaiter task).tasks = s.tasks := by
  unfold dropWaiter
  split <;> rfl

@[simp]
theorem dropWaiter_leases : (s.dropWaiter task).leases = s.leases := by
  unfold dropWaiter
  split <;> rfl

@[simp]
theorem dropWaiter_fences : (s.dropWaiter task).fences = s.fences := by
  unfold dropWaiter
  split <;> rfl

@[simp]
theorem dropWaiter_gates : (s.dropWaiter task).gates = s.gates := by
  unfold dropWaiter
  split <;> rfl

@[simp]
theorem dropWaiter_events : (s.dropWaiter task).events = s.events := by
  unfold dropWaiter
  split <;> rfl

@[simp]
theorem dropWaiter_pipelineWaiting :
    (s.dropWaiter task).pipelineWaiting = s.pipelineWaiting := by
  unfold dropWaiter
  split <;> rfl

@[simp]
theorem dropWaiter_pausedAuto : (s.dropWaiter task).pausedAuto = s.pausedAuto := by
  unfold dropWaiter
  split <;> rfl

end DropWaiter

/-- The card part of `FINALIZE_REPAIR_CANCEL_LUA`. -/
def finalizeCancelCard
    (s : Broker)
    (task : TaskId)
    (args : FinalizeCancelArgs)
    (now : Time) : Broker :=
  if (s.cards args.cardId).activeTaskId ≠ some task then s
  else
    let s := s.updCard args.cardId fun c =>
      { c with
        repairItems := some args.items
        state := some .canceled
        statusMarkdown := some args.statusMarkdown
        activeTaskId := none
        activeCategory := some ""
        revision := some args.revision
        updatedAt := some now }
    s.notify args.notification

/-- Hand a paused automatic workflow back to a worker. -/
def restartAuto
    (s : Broker)
    (auto : TaskId)
    (worker : WorkerId)
    (token : Nat)
    (now : Time) : Broker :=
  let s := s.updTask auto fun t =>
    { t with
      status := some .assigned
      workerId := some worker
      fencingToken := some token
      updatedAt := some now }
  let s := s.addWorkerTask worker auto
  s.pushInbox worker auto .resumeAuto none

/--
The last part of `FINALIZE_REPAIR_CANCEL_LUA`: a workflow paused by the
canceled repair restarts only while the repair's own lease is live.
-/
def finalizeCancelAuto
    (s : Broker)
    (task : TaskId)
    (mr : MrKey)
    (owner : Option (WorkerId × Option Nat))
    (now : Time) : Broker :=
  match s.pausedAuto (some mr), owner with
  | some auto, some (worker, some token) =>
    if s.leases mr = some (worker, token) && (s.tasks auto).status = some .pausedByTriage &&
        (s.tasks auto).auto.pausedByTriageTaskId = some task then
      (s.restartAuto auto worker token now).setPausedAuto (some mr) none
    else s
  | _, _ => s

/-- The task hash of a finally canceled repair. -/
def canceledTask (statusMarkdown : String) (now : Time) (t : TaskHash) : TaskHash :=
  { t with
    status := some .canceled
    result := some statusMarkdown
    error := some ""
    updatedAt := some now }

/-- The task and index part of `FINALIZE_REPAIR_CANCEL_LUA`, up to the gate. -/
def finalizeCancelTask
    (s : Broker)
    (task : TaskId)
    (args : FinalizeCancelArgs)
    (now : Time) : Broker :=
  let owner := (s.tasks task).workerId
  let active := s.gates (some args.mr)
  let s := s.updTask task (canceledTask args.statusMarkdown now)
  let s := s.dropOwnerTask owner task
  let s := s.dropWaiter task
  let s := s.setPipelineWaiting task none
  let s := s.setActiveRepair task none
  if active = some task then s.setGate (some args.mr) none else s

section FinalizeCancelTask

variable (s : Broker) (task : TaskId) (args : FinalizeCancelArgs) (now : Time)

@[simp]
theorem finalizeCancelTask_tasks :
    (s.finalizeCancelTask task args now).tasks =
      Function.update s.tasks task (canceledTask args.statusMarkdown now (s.tasks task)) := by
  unfold finalizeCancelTask
  dsimp only
  split <;> simp

@[simp]
theorem finalizeCancelTask_leases :
    (s.finalizeCancelTask task args now).leases = s.leases := by
  unfold finalizeCancelTask
  dsimp only
  split <;> simp

@[simp]
theorem finalizeCancelTask_fences :
    (s.finalizeCancelTask task args now).fences = s.fences := by
  unfold finalizeCancelTask
  dsimp only
  split <;> simp

@[simp]
theorem finalizeCancelTask_pausedAuto :
    (s.finalizeCancelTask task args now).pausedAuto = s.pausedAuto := by
  unfold finalizeCancelTask
  dsimp only
  split <;> simp

theorem finalizeCancelTask_gates :
    (s.finalizeCancelTask task args now).gates =
      if s.gates (some args.mr) = some task then Function.update s.gates (some args.mr) none
      else s.gates := by
  unfold finalizeCancelTask
  dsimp only
  split <;> simp

end FinalizeCancelTask

/-- The caller's lease is not the one stored with the task. -/
def foreignOwner (stored : TaskHash) (lease : Option MrLease) : Bool :=
  match lease with
  | some held =>
    stored.workerId != some held.workerId || stored.fencingToken != some held.fencingToken
  | none => false

/-- `FINALIZE_REPAIR_CANCEL_LUA`. -/
def finalizeRepairCancel
    (s : Broker)
    (task : TaskId)
    (lease : Option MrLease)
    (args : FinalizeCancelArgs)
    (now : Time) : Broker × Int :=
  let stored := s.tasks task
  let active := s.gates (some args.mr)
  if !stored.exists_ then (s, -1)
  else if !stored.cancelRequested then (s, 0)
  else if stored.status = some .completed || stored.status = some .failed then (s, 0)
  else if foreignOwner stored lease then (s, -2)
  else if active ≠ none && active ≠ some task then (s, -3)
  else
    let s := s.finalizeCancelTask task args now
    let s := s.finalizeCancelCard task args now
    (s.finalizeCancelAuto task args.mr
      (stored.workerId.map fun worker => (worker, stored.fencingToken)) now, 1)

end Broker

end MrAgent
