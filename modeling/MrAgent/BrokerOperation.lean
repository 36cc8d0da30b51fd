import MrAgent.BrokerLease
import MrAgent.BrokerAuto
import MrAgent.BrokerPipeline
import MrAgent.BrokerAdmission
import MrAgent.BrokerRollback
import MrAgent.BrokerCard
import MrAgent.TransitionSystem

namespace MrAgent

/-!
# Broker operations

One constructor per broker call that can write a key, grouped by subsystem,
and the state transformer each group denotes. A run of the broker is a
sequence of these operations chosen by any number of workers, schedulers and
webhooks, and of expiries of the keys that have a time to live.
-/

/-- Calls that create, keep and end leases. -/
inductive LeaseOp where
  | claim (mr : MrKey) (worker : WorkerId)
  | renew (lease : MrLease)
  | release (lease : MrLease)
  | revoke (lease : MrLease)
  | expire (mr : MrKey)

/-- Effect and manifest calls. -/
inductive EffectOp where
  | claim (key : String) (task : TaskId) (lease : Option MrLease) (metadata : String) (now : Time)
  | update (key : String) (lease : Option MrLease) (metadata : String) (now : Time)
  | complete (key : String) (task : TaskId) (lease : Option MrLease) (result : String) (now : Time)

/-- Calls on the repair commit manifest of a task. -/
inductive ManifestOp where
  | append (task : TaskId) (lease : Option MrLease) (args : AppendArgs) (now : Time)
  | freeze (task : TaskId) (lease : Option MrLease) (frozenAt : String) (now : Time)
      (stamped : frozenAt ≠ "")

/--
The expected and target statuses with which the executor, the scheduler and
the agent call `transition_task`.
-/
inductive TransitionCall where
  | start
  | publish
  | recordResult
  | complete
  | pause
  | suspend
  | fail
  | finishUnitTests (target : TaskStatus) (final : target = .failed ∨ target = .canceled)
  | recordRepairState
  | cancelUnitTests (target : TaskStatus) (final : target = .failed ∨ target = .canceled)
  | markFailed
  | failDelivery

namespace TransitionCall

/-- The statuses a call site expects. -/
def expected : TransitionCall → List TaskStatus
  | start => [.assigned]
  | publish | pause | suspend | recordRepairState => [.running]
  | recordResult | complete => [.publishing]
  | fail => [.running, .publishing]
  | finishUnitTests _ _ => [.running, .publishing, .waitingPipeline]
  | cancelUnitTests _ _ => [.running, .assigned, .waitingPipeline]
  | markFailed => [.assigned, .running, .publishing]
  | failDelivery => [.assigned, .running, .waitingPipeline]

/-- The status a call site asks for. -/
def target : TransitionCall → TaskStatus
  | start | recordRepairState => .running
  | publish | recordResult => .publishing
  | complete => .completed
  | pause => .pausedByTriage
  | suspend => .waitingPipeline
  | fail | markFailed | failDelivery => .failed
  | finishUnitTests target _ | cancelUnitTests target _ => target

end TransitionCall

/-- Task lifecycle and cancellation calls. -/
inductive TaskOp where
  | transition (task : TaskId) (call : TransitionCall) (lease : Option MrLease)
      (fields : TransitionFields) (now : Time)
  | assign (task : TaskId) (lease : Option MrLease) (worker : WorkerId) (now : Time)
  | heartbeat (task : TaskId) (worker : WorkerId) (token : Option Nat) (now : Time)
  | failStale (task : TaskId) (lease : MrLease) (cutoff : Time) (error : String) (now : Time)
  | requeueRepair (task : TaskId) (expected : TaskStatus) (cutoff now : Time)
  | requeueAuto (task : TaskId) (cutoff : Time) (retryLimit : Nat) (now : Time)
  | recoverDead (worker : WorkerId) (task : TaskId) (retryLimit : Nat) (now : Time)
  | transfer (task : TaskId) (oldWorker : WorkerId) (lease : MrLease)
      (event : Option PipelineEvent) (now : Time)
  | deliveryFailure (task : TaskId) (messageId : Nat) (error : String) (now : Time)
  | ackInbox (worker : WorkerId) (messageId : Nat)
  | requestCancel (task : TaskId) (args : Broker.CancelArgs) (statusMarkdown : String)
      (notification : NotificationEnvelope) (now : Time)
  | requestUtCancel (task : TaskId) (args : Broker.CancelArgs) (now : Time)
  | finalizeCancel (task : TaskId) (lease : Option MrLease) (args : Broker.FinalizeCancelArgs)
      (now : Time)

/-- Automatic workflow calls. -/
inductive AutoOp where
  | record (task : TaskId) (cursor : AutoCursor) (lease : MrLease) (now : Time)
  | pause (task triageTask : TaskId) (cursor : AutoCursor) (lease : MrLease) (now : Time)
  | resume (triageTask : TaskId) (lease : MrLease) (now : Time)

/-- Pipeline wait calls. -/
inductive PipelineOp where
  | register (task : TaskId) (args : WaitArgs) (now : Time)
  | publish (event : PipelineEvent)
  | resumeCached (task : TaskId)
  | claim (task : TaskId) (event : PipelineEvent) (lease : Option MrLease) (now : Time)
  | complete (task : TaskId) (event : PipelineEvent)
  | dropStale (task : TaskId)
  | deferFallback (task : TaskId) (now : Time)

/-- Admission calls and the admission reconciler. -/
inductive AdmissionOp where
  | enqueue (args : EnqueueArgs)
  | enqueueWithCard (args : CardEnqueueArgs)
  | postRepairUt (args : PostRepairUtArgs)
  | reconcile (mr : MrKey) (task : TaskId) (now : Time)

/-- Rollback and report calls. -/
inductive RollbackOp where
  | admitRollback (args : RollbackArgs) (now : Time)
  | complete (lease : Option MrLease) (args : Broker.CompleteRollbackArgs) (now : Time)
  | admitReport (args : Broker.ReportArgs) (now : Time)
  | setReportState (repairTask reportTask : TaskId) (state : FinalRepairReportState) (now : Time)
  | completeReport (args : Broker.CompleteReportArgs) (now : Time)

/-- Card and notification calls. -/
inductive CardOp where
  | save (mr : MrKey) (cardId : CardId) (pipelineId : Nat) (card : CardHash)
  | recordMessage (cardId : CardId) (messageId receiveId : String) (now : Time)
  | transition (cardId : CardId) (expected : List TriageCardState) (target : TriageCardState)
      (statusMarkdown : String) (now : Time)
  | transitionNotify (task : TaskId) (cardId : CardId) (expected : List TriageCardState)
      (target : TriageCardState) (statusMarkdown : String) (notification : NotificationEnvelope)
      (now : Time)
  | progress (task : TaskId) (cardId : CardId) (args : Broker.ProgressArgs)
      (notification : NotificationEnvelope) (now : Time)
  | reconcile (task : TaskId) (cardId : CardId) (expectedRevision : Nat)
      (args : Broker.TerminalCardArgs) (notification : NotificationEnvelope) (now : Time)
  | correctLate (task : TaskId) (cardId : CardId) (args : Broker.LateCorrectionArgs)
      (notification : NotificationEnvelope) (now : Time)
  | updateUt (task : TaskId) (cardId : CardId) (state : PostRepairUTState) (terminal : Bool)
      (notification : NotificationEnvelope) (now : Time)
  | publishEligibility (task : TaskId) (cardId : CardId) (commitCount revision : Nat) (now : Time)
  | notify (notification : NotificationEnvelope)
  | fallback (cardId : CardId) (notification : NotificationEnvelope) (now : Time)

/-- Expiry of a key that the scripts write with a time to live; leases apart. -/
inductive ExpiryOp where
  | dedup (key : String)
  | card (cardId : CardId)
  | latestCard (mr : MrScope)
  | latestPipeline (mr : MrScope)
  | taskCard (task : TaskId)
  | pipelineEvent (key : WaitKey)
  | waiters (key : WaitKey)
  | notification (key : String)

/-- Any broker call, or the expiry of a key. -/
inductive Op where
  | lease (op : LeaseOp)
  | effect (op : EffectOp)
  | manifest (op : ManifestOp)
  | task (op : TaskOp)
  | auto (op : AutoOp)
  | pipeline (op : PipelineOp)
  | admission (op : AdmissionOp)
  | rollback (op : RollbackOp)
  | card (op : CardOp)
  | expiry (op : ExpiryOp)

namespace Op

/-- The operation is an admission that creates tasks under the given id. -/
def requests (op : Op) (task : TaskId) : Prop :=
  match op with
  | admission (.enqueue args) => args.envelope.taskId = task
  | admission (.enqueueWithCard args) => args.envelope.taskId = task
  | admission (.postRepairUt args) => args.envelope.taskId = task
  | _ => False

/-- The operation is a completion script of the given rollback or report task. -/
def completes (op : Op) (task : TaskId) : Prop :=
  match op with
  | rollback (.complete _ args _) => args.rollbackTask = task
  | rollback (.completeReport args _) => args.reportTask = task
  | _ => False

end Op

namespace Broker

/-- State change of a lease call. -/
def leaseStep (s : Broker) : LeaseOp → Broker
  | .claim mr worker => (s.claimMr mr worker).1
  | .renew lease => (s.renewMr lease).1
  | .release lease => (s.releaseMr lease).1
  | .revoke lease => (s.revokeMr lease).1
  | .expire mr => s.expireLease mr

/-- State change of an effect call. -/
def effectStep (s : Broker) : EffectOp → Broker
  | .claim key task lease metadata now => (s.claimEffect key task lease metadata now).1
  | .update key lease metadata now => (s.updateEffect key lease metadata now).1
  | .complete key task lease result now => (s.completeEffect key task lease result now).1

/-- State change of a manifest call. -/
def manifestStep (s : Broker) : ManifestOp → Broker
  | .append task lease args now => (s.appendRepairCommit task lease args now).1
  | .freeze task lease frozenAt now _ =>
    (s.freezeRepairCommitManifest task lease frozenAt now).1

/-- State change of a task call. -/
def taskStep (s : Broker) : TaskOp → Broker
  | .transition task call lease fields now =>
    (s.transitionTask task call.expected call.target lease fields now).1
  | .assign task lease worker now => (s.assignToWorker task lease worker now).1
  | .heartbeat task worker token now => (s.heartbeatTask task worker token now).1
  | .failStale task lease cutoff error now =>
    (s.failStaleRunningTask task lease cutoff error now).1
  | .requeueRepair task expected cutoff now => (s.requeueStaleRepair task expected cutoff now).1
  | .requeueAuto task cutoff retryLimit now =>
    (s.requeueStaleAutoWorkflow task cutoff retryLimit now).1
  | .recoverDead worker task retryLimit now => (s.recoverDeadTask worker task retryLimit now).1
  | .transfer task oldWorker lease event now =>
    (s.transferOrphanedTask task oldWorker lease event now).1
  | .deliveryFailure task messageId error now => s.recordDeliveryFailure task messageId error now
  | .ackInbox worker messageId => s.ackWorkerInbox worker messageId
  | .requestCancel task args statusMarkdown notification now =>
    (s.requestRepairCancel task args statusMarkdown notification now).1
  | .requestUtCancel task args now => (s.requestPostRepairUtCancel task args now).1
  | .finalizeCancel task lease args now => (s.finalizeRepairCancel task lease args now).1

/-- State change of an automatic workflow call. -/
def autoStep (s : Broker) : AutoOp → Broker
  | .record task cursor lease now => (s.recordAutoCommandCompleted task cursor lease now).1
  | .pause task triageTask cursor lease now =>
    (s.pauseAutoForTriage task triageTask cursor lease now).1
  | .resume triageTask lease now => (s.resumeAutoAfterTriage triageTask lease now).1

/-- State change of a pipeline call. -/
def pipelineStep (s : Broker) : PipelineOp → Broker
  | .register task args now => (s.registerPipelineWait task args now).1
  | .publish event => s.publishPipelineEvent event
  | .resumeCached task => (s.resumePipelineIfCached task).1
  | .claim task event lease now => (s.claimPipelineResume task event lease now).1
  | .complete task event => (s.completePipelineResume task event).1
  | .dropStale task => s.dropStaleWait task
  | .deferFallback task now => s.deferPipelineFallback task now

/-- State change of an admission call. -/
def admissionStep (s : Broker) : AdmissionOp → Broker
  | .enqueue args => (s.enqueueTask args).1
  | .enqueueWithCard args => (s.enqueueTaskWithCard args).1
  | .postRepairUt args => (s.admitPostRepairUt args).1
  | .reconcile mr task now => (s.reconcileAdmissionGate mr task now).1

/-- State change of a rollback call. -/
def rollbackStep (s : Broker) : RollbackOp → Broker
  | .admitRollback args now => (s.admitRepairRollback args now).1
  | .complete lease args now => (s.completeRepairRollback lease args now).1
  | .admitReport args now => (s.admitFinalRepairReport args now).1
  | .setReportState repairTask reportTask state now =>
    (s.setFinalRepairReportState repairTask reportTask state now).1
  | .completeReport args now => (s.completeFinalRepairReport args now).1

/-- State change of a card call. -/
def cardStep (s : Broker) : CardOp → Broker
  | .save mr cardId pipelineId card => (s.saveTriageCard mr cardId pipelineId card).1
  | .recordMessage cardId messageId receiveId now =>
    (s.recordCardMessage cardId messageId receiveId now).1
  | .transition cardId expected target statusMarkdown now =>
    (s.transitionTriageCard cardId expected target statusMarkdown now).1
  | .transitionNotify task cardId expected target statusMarkdown notification now =>
    (s.transitionTriageCardWithNotification task cardId expected target statusMarkdown
      notification now).1
  | .progress task cardId args notification now =>
    (s.updateRepairProgressWithNotification task cardId args notification now).1
  | .reconcile task cardId expectedRevision args notification now =>
    (s.reconcileRepairCardWithNotification task cardId expectedRevision args notification now).1
  | .correctLate task cardId args notification now =>
    (s.correctLateRepairTerminal task cardId args notification now).1
  | .updateUt task cardId state terminal notification now =>
    (s.updatePostRepairUtWithNotification task cardId state terminal notification now).1
  | .publishEligibility task cardId commitCount revision now =>
    s.publishRollbackEligibility task cardId commitCount revision now
  | .notify notification => (s.enqueueNotification notification).1
  | .fallback cardId notification now => (s.enqueueCardFallback cardId notification now).1

/-- State change of an expiry. -/
def expiryStep (s : Broker) : ExpiryOp → Broker
  | .dedup key => s.setDedup key none
  | .card cardId => s.updCard cardId fun _ => {}
  | .latestCard mr => { s with latestCard := Function.update s.latestCard mr none }
  | .latestPipeline mr => { s with latestPipeline := Function.update s.latestPipeline mr none }
  | .taskCard task => { s with taskCards := Function.update s.taskCards task none }
  | .pipelineEvent key => { s with events := Function.update s.events key none }
  | .waiters key => { s with waiters := Function.update s.waiters key [] }
  | .notification key => { s with notificationDedup := srem s.notificationDedup key }

/-- One step of the broker. -/
def step (s : Broker) : Op → Broker
  | .lease op => s.leaseStep op
  | .effect op => s.effectStep op
  | .manifest op => s.manifestStep op
  | .task op => s.taskStep op
  | .auto op => s.autoStep op
  | .pipeline op => s.pipelineStep op
  | .admission op => s.admissionStep op
  | .rollback op => s.rollbackStep op
  | .card op => s.cardStep op
  | .expiry op => s.expiryStep op

end Broker

/-! ## Names shared by concrete runs -/

namespace Sample

def mr : MrKey := ⟨"group/project", 7, by decide, by decide⟩

def workerA : WorkerId := ⟨"worker-a", by decide⟩

def workerB : WorkerId := ⟨"worker-b", by decide⟩

def repair : TaskId := ⟨"repair", by decide⟩

/-- A command task on the sample merge request. -/
def envelope
    (task : TaskId)
    (kind : TaskKind)
    (command key : String)
    (payload : TaskPayload := {}) : TaskEnvelope where
  taskId := task
  kind := kind
  source := "command"
  mr := some mr
  prUrl := "https://gitlab/group/project/-/merge_requests/7"
  command := command
  payload := payload
  idempotencyKey := key
  createdAt := 1

/-- Three failures of one pipeline, all open for repair. -/
def items : List RepairItem :=
  [{ category := .pipeline, command := "/repair-pipeline", label := "all", status := .pending },
    { category := .format, command := "/fix-format", label := "format", status := .pending },
    { category := .build, command := "/triage", label := "build", status := .failed }]

/-- The card of the failed pipeline. -/
def card : CardHash where
  cardId := some "card"
  mrUrl := some "https://gitlab/group/project/-/merge_requests/7"
  projectId := some "group/project"
  mrIid := some 7
  pipelineId := some 11
  pipelineSha := some "sha"
  state := some .pipelineFailed
  openMessageId := some "message"
  receiveId := some "author"
  repairItems := some items
  revision := some 0

/-- A click on a repair button of the card; every delivery of it has the same key. -/
def click
    (task : TaskId)
    (category : String)
    (selected : List String)
    (revision : Nat) : CardEnqueueArgs where
  envelope := envelope task .prCommand "/repair-pipeline" "feishu-card:event"
  priorityOverAuto := true
  cardId := "card"
  openMessageId := "message"
  ttlSeconds := 60
  ttlPositive := by decide
  senderId := "author"
  category := category
  selectedCategories := selected
  pipelineId := some 11
  pipelineSha := "sha"
  revision := some revision
  updatedAt := 1

def notice : NotificationEnvelope := ⟨"", "", ""⟩

end Sample

end MrAgent
