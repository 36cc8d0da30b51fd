import MrAgent.AdmissionFrame

namespace MrAgent

/-!
# Work held by a worker

A worker is on duty for a task that lies in its task set, names it as owner
and is assigned, running, waiting for a pipeline or publishing. Few operations
hand a task to a worker, and few write the attempt counter of a task; every
other operation leaves both alone.
-/

/-- The four statuses in which a task's owner still has work to do. -/
def TaskStatus.unfinished : TaskStatus → Bool
  | assigned | running | waitingPipeline | publishing => true
  | _ => false

/-- The stored status is one of the four. -/
def TaskHash.unfinished (task : TaskHash) : Bool :=
  task.status.any TaskStatus.unfinished

/-- The worker's task set holds a task that it owns and has not finished. -/
structure OnDuty (s : Broker) (worker : WorkerId) (task : TaskId) : Prop where
  member : task ∈ s.workerTasks worker
  owner : (s.tasks task).workerId = some worker
  unfinished : (s.tasks task).unfinished = true

namespace Op

/-- The operation hands a task to the worker. -/
def hands (s : Broker) (op : Op) (worker : WorkerId) : Prop :=
  match op with
  | task (.assign _ _ receiver _) => receiver = worker
  | task (.transfer _ _ held _ _) => held.workerId = worker
  | task (.finalizeCancel repair _ args _) =>
    (s.tasks repair).workerId = some worker ∧ (s.pausedAuto (some args.mr)).isSome = true
  | auto (.resume _ held _) => held.workerId = worker
  | _ => False

/-- The operation may write the attempt counter of the task. -/
def counts (s : Broker) (op : Op) (target : TaskId) : Prop :=
  match op with
  | task (.requeueAuto requeued _ _ _) => requeued = target
  | task (.recoverDead _ recovered _ _) => recovered = target
  | rollback (.admitRollback args _) =>
    args.rollbackTask = target ∧ (s.tasks target).exists_ = false
  | rollback (.admitReport args _) =>
    args.reportTask = target ∧ (s.tasks target).exists_ = false
  | op => op.requests target

end Op

section WorkKept

variable (handed : WorkerId → Prop) (counted : TaskId → Prop)

/-- A task did not become work of a worker that was handed nothing. -/
structure HashKept (task : TaskId) (before after : TaskHash) : Prop where
  attempt : ¬counted task → after.attempt = before.attempt
  duty : ∀ worker, ¬handed worker → after.workerId = some worker → after.unfinished = true →
    before.workerId = some worker ∧ before.unfinished = true

/-- Work is handed only to some workers and counted only for some tasks. -/
structure WorkKept (before after : Broker) : Prop where
  hashes : ∀ task, HashKept handed counted task (before.tasks task) (after.tasks task)
  members : ∀ worker, ¬handed worker → ∀ task, task ∈ after.workerTasks worker →
    task ∈ before.workerTasks worker

end WorkKept

namespace HashKept

variable {handed : WorkerId → Prop} {counted : TaskId → Prop} {task : TaskId}

theorem refl (hash : TaskHash) : HashKept handed counted task hash hash :=
  ⟨fun _ => rfl, fun _ _ owner unfinished => ⟨owner, unfinished⟩⟩

theorem trans
    {first middle last : TaskHash}
    (left : HashKept handed counted task first middle)
    (right : HashKept handed counted task middle last) :
    HashKept handed counted task first last := by
  refine ⟨fun plain => (right.attempt plain).trans (left.attempt plain), ?_⟩
  intro worker free owner unfinished
  obtain ⟨owner, unfinished⟩ := right.duty worker free owner unfinished
  exact left.duty worker free owner unfinished

variable {before after : TaskHash}

theorem of_same
    (attempt : after.attempt = before.attempt)
    (owner : after.workerId = before.workerId)
    (status : after.status = before.status) :
    HashKept handed counted task before after := by
  refine ⟨fun _ => attempt, ?_⟩
  intro worker _ owned unfinished
  rw [owner] at owned
  rw [TaskHash.unfinished, status] at unfinished
  exact ⟨owned, unfinished⟩

theorem of_finished
    (attempt : ¬counted task → after.attempt = before.attempt)
    (finished : after.unfinished = false) :
    HashKept handed counted task before after := by
  refine ⟨attempt, ?_⟩
  intro worker _ _ unfinished
  rw [finished] at unfinished
  cases unfinished

theorem of_unfinished
    (attempt : after.attempt = before.attempt)
    (owner : after.workerId = before.workerId)
    (unfinished : before.unfinished = true) :
    HashKept handed counted task before after := by
  refine ⟨fun _ => attempt, ?_⟩
  intro worker _ owned _
  exact ⟨owner ▸ owned, unfinished⟩

theorem of_handed
    {receiver : WorkerId}
    (attempt : after.attempt = before.attempt)
    (owner : after.workerId = some receiver)
    (given : handed receiver) :
    HashKept handed counted task before after := by
  refine ⟨fun _ => attempt, ?_⟩
  intro worker free owned _
  rw [owner] at owned
  cases owned
  exact absurd given free

end HashKept

namespace WorkKept

variable {handed : WorkerId → Prop} {counted : TaskId → Prop}

theorem refl (s : Broker) : WorkKept handed counted s s :=
  ⟨fun _ => HashKept.refl _, fun _ _ _ member => member⟩

theorem trans
    {first middle last : Broker}
    (left : WorkKept handed counted first middle)
    (right : WorkKept handed counted middle last) :
    WorkKept handed counted first last := by
  refine ⟨fun task => (left.hashes task).trans (right.hashes task), ?_⟩
  intro worker free task member
  exact left.members worker free task (right.members worker free task member)

variable {before after : Broker}

theorem of_frame
    (tasks : after.tasks = before.tasks)
    (workerTasks : after.workerTasks = before.workerTasks) :
    WorkKept handed counted before after := by
  constructor
  · intro task
    rw [tasks]
    exact HashKept.refl _
  · intro worker _ task member
    rw [workerTasks] at member
    exact member

theorem of_task
    {changed : TaskId}
    {hash : TaskHash}
    (tasks : after.tasks = Function.update before.tasks changed hash)
    (workerTasks : after.workerTasks = before.workerTasks)
    (kept : HashKept handed counted changed (before.tasks changed) hash) :
    WorkKept handed counted before after := by
  constructor
  · intro task
    rw [tasks]
    by_cases same : task = changed
    · subst task
      rw [Function.update_self]
      exact kept
    · rw [Function.update_of_ne same]
      exact HashKept.refl _
  · intro worker _ task member
    rw [workerTasks] at member
    exact member

variable {task : TaskId}

theorem updTask
    {before middle : Broker}
    {change : TaskHash → TaskHash}
    (kept : WorkKept handed counted before middle)
    (hash : HashKept handed counted task (middle.tasks task) (change (middle.tasks task))) :
    WorkKept handed counted before (middle.updTask task change) :=
  kept.trans (of_task rfl rfl hash)

theorem remWorkerTask (s : Broker) (owner : WorkerId) (task : TaskId) :
    WorkKept handed counted s (s.remWorkerTask owner task) := by
  refine ⟨fun _ => HashKept.refl _, ?_⟩
  intro worker _ other member
  rw [Broker.remWorkerTask_workerTasks] at member
  by_cases same : worker = owner
  · subst worker
    rw [Function.update_self, mem_srem] at member
    exact member.1
  · rwa [Function.update_of_ne same] at member

theorem addWorkerTask
    (s : Broker)
    {receiver : WorkerId}
    (task : TaskId)
    (given : handed receiver) :
    WorkKept handed counted s (s.addWorkerTask receiver task) := by
  refine ⟨fun _ => HashKept.refl _, ?_⟩
  intro worker free other member
  rw [Broker.addWorkerTask_workerTasks] at member
  have different : worker ≠ receiver := by
    rintro rfl
    exact free given
  rwa [Function.update_of_ne different] at member

theorem dropOwnerTask (s : Broker) (owner : Option WorkerId) (task : TaskId) :
    WorkKept handed counted s (s.dropOwnerTask owner task) := by
  cases owner with
  | none =>
      exact refl s
  | some worker =>
      exact remWorkerTask s worker task

theorem dropWaiter (s : Broker) (task : TaskId) :
    WorkKept handed counted s (s.dropWaiter task) := by
  unfold Broker.dropWaiter
  split
  · exact of_frame rfl rfl
  · exact refl s

theorem onDuty
    {worker : WorkerId}
    (kept : WorkKept handed counted before after)
    (free : ¬handed worker)
    (duty : OnDuty after worker task) :
    OnDuty before worker task := by
  obtain ⟨owner, unfinished⟩ :=
    (kept.hashes task).duty worker free duty.owner duty.unfinished
  exact ⟨kept.members worker free task duty.member, owner, unfinished⟩

end WorkKept

namespace Broker

variable (s : Broker) {handed : WorkerId → Prop} {counted : TaskId → Prop}

/-! ## Calls that leave status, owner and counter alone -/

theorem leaseStep_workKept (op : LeaseOp) : WorkKept handed counted s (s.leaseStep op) := by
  obtain ⟨leases, fences, changed⟩ := leaseStep_frame s op
  rw [changed]
  exact WorkKept.of_frame rfl rfl

theorem effectStep_workKept (op : EffectOp) : WorkKept handed counted s (s.effectStep op) := by
  cases op with
  | claim key task lease metadata now =>
      dsimp only [effectStep, claimEffect]
      repeat' split
      all_goals first
        | exact WorkKept.refl s
        | exact WorkKept.of_task rfl rfl (HashKept.of_same rfl rfl rfl)
  | update key lease metadata now =>
      dsimp only [effectStep, updateEffect]
      repeat' split
      all_goals exact WorkKept.of_frame rfl rfl
  | complete key task lease result now =>
      dsimp only [effectStep, completeEffect]
      repeat' split
      all_goals first
        | exact WorkKept.of_frame rfl rfl
        | exact WorkKept.of_task rfl rfl (HashKept.of_same rfl rfl rfl)

theorem manifestStep_workKept (op : ManifestOp) :
    WorkKept handed counted s (s.manifestStep op) := by
  rcases manifestStep_cases s op with same | ⟨task, manifest, now, changed⟩
  · rw [same]
    exact WorkKept.refl s
  · rw [changed]
    exact WorkKept.of_task rfl rfl (HashKept.of_same rfl rfl rfl)

theorem cardStep_workKept (op : CardOp) : WorkKept handed counted s (s.cardStep op) := by
  cases op with
  | correctLate task cardId args notification now =>
      dsimp only [cardStep, correctLateRepairTerminal]
      split
      · exact WorkKept.refl s
      split
      · exact WorkKept.refl s
      · exact WorkKept.of_task rfl rfl (HashKept.of_same rfl rfl rfl)
  | save mr cardId pipelineId card =>
      dsimp only [cardStep, saveTriageCard]
      repeat' split
      all_goals exact WorkKept.of_frame rfl rfl
  | recordMessage cardId messageId receiveId now =>
      dsimp only [cardStep, recordCardMessage]
      repeat' split
      all_goals exact WorkKept.of_frame rfl rfl
  | transition cardId expected target statusMarkdown now =>
      dsimp only [cardStep, transitionTriageCard]
      split <;> exact WorkKept.of_frame rfl rfl
  | transitionNotify task cardId expected target statusMarkdown notification now =>
      dsimp only [cardStep, transitionTriageCardWithNotification]
      repeat' split
      all_goals exact WorkKept.of_frame rfl rfl
  | progress task cardId args notification now =>
      dsimp only [cardStep, updateRepairProgressWithNotification]
      split
      · exact WorkKept.refl s
      split <;> exact WorkKept.of_frame rfl rfl
  | reconcile task cardId expectedRevision args notification now =>
      dsimp only [cardStep, reconcileRepairCardWithNotification]
      repeat' split
      all_goals exact WorkKept.of_frame rfl rfl
  | updateUt task cardId state terminal notification now =>
      dsimp only [cardStep, updatePostRepairUtWithNotification]
      repeat' split
      all_goals exact WorkKept.of_frame rfl rfl
  | publishEligibility task cardId commitCount revision now =>
      exact WorkKept.of_frame rfl rfl
  | notify notification =>
      dsimp only [cardStep, enqueueNotification]
      split <;> exact WorkKept.of_frame rfl rfl
  | fallback cardId notification now =>
      dsimp only [cardStep, enqueueCardFallback]
      repeat' split
      all_goals exact WorkKept.of_frame rfl rfl

theorem expiryStep_workKept (op : ExpiryOp) : WorkKept handed counted s (s.expiryStep op) := by
  cases op <;> exact WorkKept.of_frame rfl rfl

/-! ## Task lifecycle -/

theorem TransitionCall_unfinished
    (call : TransitionCall)
    {status : TaskStatus}
    (expected : status ∈ call.expected) :
    call.target.unfinished = false ∨ status.unfinished = true := by
  cases call with
  | start | publish | pause | suspend | recordRepairState | recordResult | complete =>
      simp only [TransitionCall.expected, List.mem_singleton] at expected
      subst status
      exact Or.inr rfl
  | fail | markFailed | failDelivery =>
      exact Or.inl rfl
  | finishUnitTests target final | cancelUnitTests target final =>
      rcases final with rfl | rfl <;> exact Or.inl rfl

theorem transitionTask_workKept
    (task : TaskId) (call : TransitionCall) (lease : Option MrLease)
    (fields : TransitionFields) (now : Time) :
    WorkKept handed counted s
      (s.transitionTask task call.expected call.target lease fields now).1 := by
  rcases s.transitionTask_cases task call.expected call.target lease fields now with
    ⟨reply, _, refused⟩ | ⟨⟨current, expected, stored⟩, _, activeRepairs, changed⟩
  · rw [refused]
    exact WorkKept.refl s
  · rw [changed]
    refine WorkKept.of_task rfl rfl ?_
    rcases TransitionCall_unfinished call expected with finished | unfinished
    · exact HashKept.of_finished (fun _ => rfl) finished
    · exact HashKept.of_unfinished rfl rfl (by rw [TaskHash.unfinished, stored]; exact unfinished)

theorem assignToWorker_workKept
    (task : TaskId) (lease : Option MrLease) (worker : WorkerId) (now : Time)
    (given : handed worker) :
    WorkKept handed counted s (s.assignToWorker task lease worker now).1 := by
  have assigned : ∀ held, WorkKept handed counted s (s.assignTask task held worker now).1 := by
    intro held
    unfold assignTask
    split
    · exact WorkKept.refl s
    split
    · exact WorkKept.refl s
    · have owned : WorkKept handed counted s (s.updTask task fun t =>
          { t with
            status := some .assigned
            workerId := some worker
            fencingToken := held.map (·.fencingToken)
            updatedAt := some now }) :=
        WorkKept.of_task rfl rfl (HashKept.of_handed rfl rfl given)
      exact (owned.trans (WorkKept.addWorkerTask _ task given)).trans (WorkKept.of_frame rfl rfl)
  unfold assignToWorker
  split
  · split
    · exact WorkKept.refl s
    · exact assigned _
  · exact assigned none

theorem requeueStaleRepair_workKept
    (task : TaskId) (expected : TaskStatus) (cutoff now : Time) :
    WorkKept handed counted s (s.requeueStaleRepair task expected cutoff now).1 := by
  unfold requeueStaleRepair
  dsimp only
  split
  · exact WorkKept.refl s
  dsimp only
  refine WorkKept.updTask ?_ (HashKept.of_same rfl rfl rfl)
  split
  · have requeued : WorkKept handed counted s
        ((s.dropOwnerTask (s.tasks task).workerId task).updTask task fun t =>
          { t with
            status := some .queued
            updatedAt := some now
            workerId := none
            fencingToken := none }) := by
      refine WorkKept.updTask (WorkKept.dropOwnerTask s _ task) ?_
      exact HashKept.of_finished (fun _ => rfl) rfl
    exact requeued.trans (WorkKept.of_frame rfl rfl)
  · exact WorkKept.of_frame rfl rfl

theorem requeueStaleAutoWorkflow_workKept
    (task : TaskId) (cutoff : Time) (retryLimit : Nat) (now : Time)
    (counting : counted task) :
    WorkKept handed counted s (s.requeueStaleAutoWorkflow task cutoff retryLimit now).1 := by
  unfold requeueStaleAutoWorkflow
  dsimp only
  split
  · exact WorkKept.refl s
  rename_i due
  simp only [Bool.or_eq_true, decide_eq_true_eq, not_or, not_not] at due
  have queued : ∀ hash : TaskHash, hash.status = some .queued → hash.unfinished = false := by
    intro hash status
    rw [TaskHash.unfinished, status]
    rfl
  split
  · exact WorkKept.refl s
  split
  · exact WorkKept.of_task rfl rfl (HashKept.of_finished (fun _ => rfl) rfl)
  · refine WorkKept.of_task rfl rfl (HashKept.of_finished ?_ (queued _ due.1))
    intro uncounted
    exact absurd counting uncounted

theorem recoverDeadTask_workKept
    (worker : WorkerId) (task : TaskId) (retryLimit : Nat) (now : Time)
    (counting : counted task) :
    WorkKept handed counted s (s.recoverDeadTask worker task retryLimit now).1 := by
  have retried : WorkKept handed counted s (s.retryDeadTask worker task retryLimit now).1 := by
    unfold retryDeadTask
    dsimp only
    split
    · refine WorkKept.trans ?_ (WorkKept.remWorkerTask _ worker task)
      refine WorkKept.of_task rfl rfl (HashKept.of_finished ?_ rfl)
      intro uncounted
      exact absurd counting uncounted
    · refine WorkKept.trans ?_ (WorkKept.remWorkerTask _ worker task)
      split
      all_goals
        refine WorkKept.of_task rfl rfl (HashKept.of_finished ?_ rfl)
        intro uncounted
        exact absurd counting uncounted
  unfold recoverDeadTask
  dsimp only
  repeat' split
  all_goals first
    | exact retried
    | exact WorkKept.refl s
    | exact WorkKept.remWorkerTask s worker task

theorem transferOrphanedTask_workKept
    (task : TaskId) (oldWorker : WorkerId) (lease : MrLease) (event : Option PipelineEvent)
    (now : Time)
    (given : handed lease.workerId) :
    WorkKept handed counted s (s.transferOrphanedTask task oldWorker lease event now).1 := by
  unfold transferOrphanedTask
  dsimp only
  split
  · exact WorkKept.refl s
  split
  · exact WorkKept.refl s
  have owned : WorkKept handed counted s
      (((s.updTask task fun t =>
        { t with
          workerId := some lease.workerId
          fencingToken := some lease.fencingToken
          updatedAt := some now }).remWorkerTask oldWorker task).addWorkerTask
            lease.workerId task) := by
    refine WorkKept.trans (WorkKept.trans ?_ (WorkKept.remWorkerTask _ oldWorker task))
      (WorkKept.addWorkerTask _ task given)
    exact WorkKept.of_task rfl rfl (HashKept.of_handed rfl rfl given)
  split
  · split
    · exact owned.trans (WorkKept.of_frame rfl rfl)
    · exact owned
  · exact owned

theorem restartAuto_workKept
    (auto : TaskId) (worker : WorkerId) (token : Nat) (now : Time)
    (given : handed worker) :
    WorkKept handed counted s (s.restartAuto auto worker token now) := by
  have owned : WorkKept handed counted s (s.updTask auto fun t =>
      { t with
        status := some .assigned
        workerId := some worker
        fencingToken := some token
        updatedAt := some now }) :=
    WorkKept.of_task rfl rfl (HashKept.of_handed rfl rfl given)
  exact (owned.trans (WorkKept.addWorkerTask _ auto given)).trans (WorkKept.of_frame rfl rfl)

theorem finalizeCancelAuto_workKept
    (task : TaskId) (mr : MrKey) (owner : Option (WorkerId × Option Nat)) (now : Time)
    (given : ∀ worker token, owner = some (worker, token) →
      (s.pausedAuto (some mr)).isSome = true → handed worker) :
    WorkKept handed counted s (s.finalizeCancelAuto task mr owner now) := by
  unfold finalizeCancelAuto
  split
  · rename_i auto worker token paused
    split
    · have restarted : WorkKept handed counted s (s.restartAuto auto worker token now) :=
        restartAuto_workKept s auto worker token now
          (given worker (some token) rfl (by rw [paused]; rfl))
      exact restarted.trans (WorkKept.of_frame rfl rfl)
    · exact WorkKept.refl s
  · exact WorkKept.refl s

theorem finalizeCancelTask_workKept (task : TaskId) (args : FinalizeCancelArgs) (now : Time) :
    WorkKept handed counted s (s.finalizeCancelTask task args now) := by
  have canceled : WorkKept handed counted s
      (s.updTask task (canceledTask args.statusMarkdown now)) :=
    WorkKept.of_task rfl rfl (HashKept.of_finished (fun _ => rfl) rfl)
  have waited := (canceled.trans (WorkKept.dropOwnerTask _ (s.tasks task).workerId task)).trans
    (WorkKept.dropWaiter _ task)
  have ended : ∀ s : Broker, WorkKept handed counted s
      ((s.setPipelineWaiting task none).setActiveRepair task none) :=
    fun _ => WorkKept.of_frame rfl rfl
  have opened : ∀ s : Broker, WorkKept handed counted s (s.setGate (some args.mr) none) :=
    fun _ => WorkKept.of_frame rfl rfl
  rw [finalizeCancelTask]
  split
  · exact (waited.trans (ended _)).trans (opened _)
  · exact waited.trans (ended _)

theorem finalizeRepairCancel_workKept
    (task : TaskId) (lease : Option MrLease) (args : FinalizeCancelArgs) (now : Time)
    (given : ∀ worker, (s.tasks task).workerId = some worker →
      (s.pausedAuto (some args.mr)).isSome = true → handed worker) :
    WorkKept handed counted s (s.finalizeRepairCancel task lease args now).1 := by
  unfold finalizeRepairCancel
  dsimp only
  repeat' split
  all_goals first
    | exact WorkKept.refl s
    | skip
  have canceled : WorkKept handed counted s
      ((s.finalizeCancelTask task args now).finalizeCancelCard task args now) := by
    refine (finalizeCancelTask_workKept s task args now).trans ?_
    unfold finalizeCancelCard
    split <;> exact WorkKept.of_frame rfl rfl
  refine canceled.trans (finalizeCancelAuto_workKept _ task args.mr _ now ?_)
  intro worker token owned paused
  have paused' : (s.pausedAuto (some args.mr)).isSome = true := by
    unfold finalizeCancelCard at paused
    split at paused <;> simpa using paused
  cases owner : (s.tasks task).workerId with
  | none =>
      rw [owner] at owned
      cases owned
  | some stored =>
      rw [owner] at owned
      cases owned
      exact given worker owner paused'

theorem taskStep_workKept
    (op : TaskOp)
    (hands : ∀ worker, (Op.task op).hands s worker → handed worker)
    (counts : ∀ task, (Op.task op).counts s task → counted task) :
    WorkKept handed counted s (s.taskStep op) := by
  cases op with
  | transition task call lease fields now =>
      exact transitionTask_workKept s task call lease fields now
  | assign task lease worker now =>
      exact assignToWorker_workKept s task lease worker now (hands worker rfl)
  | heartbeat task worker token now =>
      dsimp only [taskStep, heartbeatTask]
      split
      · exact WorkKept.refl s
      · exact WorkKept.of_task rfl rfl (HashKept.of_same rfl rfl rfl)
  | failStale task lease cutoff error now =>
      dsimp only [taskStep, failStaleRunningTask]
      repeat' split
      all_goals first
        | exact WorkKept.refl s
        | exact WorkKept.of_task rfl rfl (HashKept.of_finished (fun _ => rfl) rfl)
  | requeueRepair task expected cutoff now =>
      exact requeueStaleRepair_workKept s task expected cutoff now
  | requeueAuto task cutoff retryLimit now =>
      exact requeueStaleAutoWorkflow_workKept s task cutoff retryLimit now (counts task rfl)
  | recoverDead worker task retryLimit now =>
      exact recoverDeadTask_workKept s worker task retryLimit now (counts task rfl)
  | transfer task oldWorker lease event now =>
      exact transferOrphanedTask_workKept s task oldWorker lease event now
        (hands lease.workerId rfl)
  | deliveryFailure task messageId error now =>
      exact WorkKept.of_task rfl rfl (HashKept.of_same rfl rfl rfl)
  | ackInbox worker messageId =>
      exact WorkKept.of_frame rfl rfl
  | requestCancel task args statusMarkdown notification now =>
      dsimp only [taskStep, requestRepairCancel]
      repeat' split
      all_goals first
        | exact WorkKept.refl s
        | exact WorkKept.of_task rfl rfl (HashKept.of_same rfl rfl rfl)
  | requestUtCancel task args now =>
      dsimp only [taskStep, requestPostRepairUtCancel]
      repeat' split
      all_goals first
        | exact WorkKept.refl s
        | exact WorkKept.of_task rfl rfl (HashKept.of_same rfl rfl rfl)
  | finalizeCancel task lease args now =>
      exact finalizeRepairCancel_workKept s task lease args now
        fun worker owner paused => hands worker ⟨owner, paused⟩

theorem autoStep_workKept
    (op : AutoOp)
    (hands : ∀ worker, (Op.auto op).hands s worker → handed worker) :
    WorkKept handed counted s (s.autoStep op) := by
  cases op with
  | record task cursor lease now =>
      dsimp only [autoStep, recordAutoCommandCompleted]
      repeat' split
      all_goals first
        | exact WorkKept.refl s
        | exact WorkKept.of_task rfl rfl (HashKept.of_same rfl rfl rfl)
  | pause task triageTask cursor lease now =>
      dsimp only [autoStep, pauseAutoForTriage]
      repeat' split
      all_goals first
        | exact WorkKept.refl s
        | exact WorkKept.of_task rfl rfl (HashKept.of_finished (fun _ => rfl) rfl)
  | resume triageTask lease now =>
      dsimp only [autoStep, resumeAutoAfterTriage]
      repeat' split
      all_goals first
        | exact WorkKept.of_frame rfl rfl
        | skip
      rename_i auto _ _
      have restarted : WorkKept handed counted s _ :=
        (WorkKept.dropOwnerTask s (s.tasks auto).workerId auto).trans
          (restartAuto_workKept _ auto lease.workerId lease.fencingToken now
            (hands lease.workerId rfl))
      exact restarted.trans (WorkKept.of_frame rfl rfl)

/-! ## Pipeline waits -/

theorem queueResume_workKept (task : TaskId) (worker : WorkerId) (event : PipelineEvent) :
    WorkKept handed counted s (s.queueResume task worker event) :=
  WorkKept.of_task rfl rfl (HashKept.of_same rfl rfl rfl)

theorem publishLoop_workKept (event : PipelineEvent) (tasks : List TaskId) :
    WorkKept handed counted s (tasks.foldl (publishTo event) s) := by
  induction tasks generalizing s with
  | nil =>
      exact WorkKept.refl s
  | cons task rest ih =>
      have queued : WorkKept handed counted s (publishTo event s task) := by
        unfold publishTo
        dsimp only
        repeat' split
        all_goals first
          | exact WorkKept.refl s
          | exact queueResume_workKept s task _ event
      exact queued.trans (ih (publishTo event s task))

theorem pipelineStep_workKept (op : PipelineOp) :
    WorkKept handed counted s (s.pipelineStep op) := by
  cases op with
  | register task args now =>
      dsimp only [pipelineStep, registerPipelineWait]
      split
      · exact WorkKept.refl s
      · exact WorkKept.of_task rfl rfl (HashKept.of_same rfl rfl rfl)
  | publish event =>
      have cached : WorkKept handed counted s
          ((s.setEvent event.shaKey event).setEvent event.pipelineKey event) :=
        WorkKept.of_frame rfl rfl
      dsimp only [pipelineStep, publishPipelineEvent]
      split
      · exact cached
      · exact cached.trans (publishLoop_workKept _ event _)
  | resumeCached task =>
      dsimp only [pipelineStep, resumePipelineIfCached]
      repeat' split
      all_goals first
        | exact WorkKept.refl s
        | exact queueResume_workKept s task _ _
  | claim task event lease now =>
      dsimp only [pipelineStep, claimPipelineResume]
      split
      · split <;> exact WorkKept.refl s
      rename_i waiting
      split
      · exact WorkKept.refl s
      split
      · exact WorkKept.refl s
      split
      · exact WorkKept.refl s
      · dsimp only
        refine WorkKept.updTask ((WorkKept.dropWaiter s task).trans
          (WorkKept.of_frame rfl rfl)) ?_
        refine HashKept.of_unfinished rfl rfl ?_
        rw [setPipelineWaiting_tasks, dropWaiter_tasks, TaskHash.unfinished, not_not.mp waiting]
        rfl
  | complete task event =>
      dsimp only [pipelineStep, completePipelineResume]
      split
      · exact WorkKept.refl s
      split
      · exact WorkKept.refl s
      · dsimp only
        refine WorkKept.updTask ((WorkKept.dropWaiter s task).trans
          (WorkKept.of_frame rfl rfl)) ?_
        exact HashKept.of_same rfl rfl rfl
  | dropStale task =>
      dsimp only [pipelineStep, dropStaleWait]
      split <;> exact WorkKept.of_frame rfl rfl
  | deferFallback task now =>
      exact WorkKept.of_frame rfl rfl

/-! ## Admissions -/

theorem startTask_workKept
    (envelope : TaskEnvelope) (context : AdmissionContext) (priority : Bool)
    (counting : counted envelope.taskId) :
    WorkKept handed counted s (s.startTask envelope context priority) := by
  refine WorkKept.of_task (startTask_tasks s envelope context priority) ?_ ?_
  · unfold startTask
    dsimp only
    split <;> split <;> rfl
  · refine HashKept.of_finished ?_ rfl
    intro uncounted
    exact absurd counting uncounted

theorem inspectOrRecover_workKept (args : EnqueueArgs) (task : TaskId) :
    WorkKept handed counted s (s.inspectOrRecover args task).1 := by
  unfold inspectOrRecover
  dsimp only
  repeat' split
  all_goals first
    | exact WorkKept.refl s
    | exact WorkKept.of_task rfl rfl (HashKept.of_same rfl rfl rfl)
    | exact WorkKept.of_task rfl rfl (HashKept.of_finished (fun _ => rfl) rfl)

theorem enqueueTask_workKept
    (args : EnqueueArgs)
    (counting : counted args.envelope.taskId) :
    WorkKept handed counted s (s.enqueueTask args).1 := by
  have pieces : EnqueuePieces args (WorkKept handed counted) (WorkKept handed counted) :=
    { trans := WorkKept.trans
      after := WorkKept.trans
      quiet := id
      inspected := fun s task => inspectOrRecover_workKept s args task
      released := fun _ => WorkKept.of_frame rfl rfl
      deduplicated := fun _ _ => WorkKept.of_frame rfl rfl
      created := fun s => startTask_workKept s _ _ _ counting }
  exact pieces.enqueueTask s

theorem admitCandidate_workKept
    (args : CardEnqueueArgs) (candidate : TaskId) (incomplete : Bool) :
    WorkKept handed counted s (s.admitCandidate args candidate incomplete).1 := by
  have completed : WorkKept handed counted s (s.completeCandidate args candidate) := by
    unfold completeCandidate
    dsimp only
    split <;> exact WorkKept.of_task rfl rfl (HashKept.of_same rfl rfl rfl)
  unfold admitCandidate
  dsimp only
  split
  · exact WorkKept.refl s
  split
  · exact WorkKept.refl s
  · cases incomplete
    · split <;> exact WorkKept.of_frame rfl rfl
    · split <;> exact completed.trans (WorkKept.of_frame rfl rfl)

theorem enqueueTaskWithCard_workKept
    (args : CardEnqueueArgs)
    (counting : counted args.envelope.taskId) :
    WorkKept handed counted s (s.enqueueTaskWithCard args).1 := by
  have forgotten : ∀ s candidate,
      WorkKept handed counted s (forgetCandidate s args candidate) := by
    intro s candidate
    unfold forgetCandidate
    dsimp only
    repeat' split
    all_goals exact WorkKept.of_frame rfl rfl
  have fresh : ∀ s items, WorkKept handed counted s (freshAdmission s args items) := by
    intro s items
    rw [freshAdmission_eq]
    exact (startTask_workKept s _ _ _ counting).trans (WorkKept.of_frame rfl rfl)
  have created : ∀ s, WorkKept handed counted s
      (touchCard args args.envelope.taskId (createCardTask s args)) := by
    intro s
    exact (startTask_workKept s _ _ _ counting).trans (WorkKept.of_frame rfl rfl)
  have pieces : CardEnqueuePieces args (WorkKept handed counted) (WorkKept handed counted) :=
    { refl := WorkKept.refl
      trans := WorkKept.trans
      after := WorkKept.trans
      quiet := id
      released := fun _ => WorkKept.of_frame rfl rfl
      deduplicated := fun _ _ => WorkKept.of_frame rfl rfl
      touched := fun _ _ => WorkKept.of_frame rfl rfl
      forgotten := forgotten
      candidate := fun s candidate => admitCandidate_workKept s args candidate
      fresh := fresh
      created := created }
  exact pieces.enqueueTaskWithCard s

theorem admitPostRepairUt_workKept
    (args : PostRepairUtArgs)
    (counting : counted args.envelope.taskId) :
    WorkKept handed counted s (s.admitPostRepairUt args).1 := by
  unfold admitPostRepairUt
  dsimp only
  repeat' split
  all_goals first
    | exact WorkKept.refl s
    | exact (startTask_workKept s args.envelope args.context true counting).trans
        (WorkKept.of_frame rfl rfl)

theorem reconcileAdmissionGate_workKept (mr : MrKey) (task : TaskId) (now : Time) :
    WorkKept handed counted s (s.reconcileAdmissionGate mr task now).1 := by
  have released : ∀ middle : Broker,
      WorkKept handed counted middle (middle.releaseGate mr task) := by
    intro middle
    unfold releaseGate
    dsimp only
    split <;> exact WorkKept.of_frame rfl rfl
  have failed : WorkKept handed counted s (s.failAdmission mr task now) := by
    unfold failAdmission
    refine WorkKept.trans ?_ (released _)
    exact WorkKept.of_task rfl rfl (HashKept.of_finished (fun _ => rfl) rfl)
  have finished : ∀ context,
      WorkKept handed counted s (s.finishAdmission mr task context now) := by
    intro context
    unfold finishAdmission
    dsimp only
    split <;> exact WorkKept.of_task rfl rfl (HashKept.of_same rfl rfl rfl)
  unfold reconcileAdmissionGate
  dsimp only
  repeat' split
  all_goals first
    | exact WorkKept.refl s
    | exact finished _
    | exact failed
    | exact released s
    | exact WorkKept.of_frame rfl rfl

/-! ## Rollbacks and reports -/

theorem settledRepair_hashKept
    (args : RollbackArgs) (now : Time) (hash : TaskHash) :
    HashKept handed counted args.repairTask hash (settledRepair args now hash) := by
  unfold settledRepair
  split
  all_goals first
    | exact HashKept.refl hash
    | exact HashKept.of_finished (fun _ => rfl) rfl

theorem settleRepair_workKept (args : RollbackArgs) (now : Time) :
    WorkKept handed counted s (s.settleRepair args now) := by
  have settled : WorkKept handed counted s (s.endRepair args now) := by
    unfold endRepair
    refine WorkKept.trans ?_ (WorkKept.dropOwnerTask _ _ _)
    exact WorkKept.of_task rfl rfl (settledRepair_hashKept args now _)
  have repointed : ∀ middle : Broker,
      WorkKept handed counted middle (middle.repointPausedAuto args now) := by
    intro middle
    unfold repointPausedAuto
    repeat' split
    all_goals first
      | exact WorkKept.refl middle
      | exact WorkKept.of_task rfl rfl (HashKept.of_same rfl rfl rfl)
  unfold settleRepair
  split
  · exact WorkKept.refl s
  · exact WorkKept.refl s
  · refine WorkKept.trans ?_ (repointed _)
    exact settled.trans (WorkKept.of_frame rfl rfl)
  · refine WorkKept.trans ?_ (repointed _)
    exact settled.trans (WorkKept.of_frame rfl rfl)
  · exact settled.trans (WorkKept.of_frame rfl rfl)
  · exact settled.trans (WorkKept.of_frame rfl rfl)

theorem createRollback_workKept
    (count : Nat) (args : RollbackArgs) (now : Time)
    (counting : counted args.rollbackTask) :
    WorkKept handed counted s (s.createRollback count args now) := by
  have original : WorkKept handed counted s (s.updTask args.repairTask fun t =>
      { t with repairRollbackState := some args.state, updatedAt := some now }) :=
    WorkKept.of_task rfl rfl (HashKept.of_same rfl rfl rfl)
  have created : WorkKept handed counted s
      ((s.updTask args.repairTask fun t =>
        { t with repairRollbackState := some args.state, updatedAt := some now }).updTask
          args.rollbackTask fun t =>
            { t with
              payload := some args.envelope
              status := some .queued
              attempt := some 0
              createdAt := some now
              updatedAt := some now
              admissionState := some .enqueued
              admissionContext := some args.context
              repairRollbackState := some args.state }) := by
    refine original.updTask (HashKept.of_finished ?_ rfl)
    intro uncounted
    exact absurd counting uncounted
  exact created.trans (WorkKept.of_task rfl rfl (HashKept.of_same rfl rfl rfl))

theorem admitRepairRollback_workKept
    (args : RollbackArgs) (now : Time)
    (counting : (s.tasks args.rollbackTask).exists_ = false → counted args.rollbackTask) :
    WorkKept handed counted s (s.admitRepairRollback args now).1 := by
  rcases admitRepairRollback_cases s args now with
    ⟨same, _⟩ | ⟨admissible, _, count, changed⟩
  · rw [same]
    exact WorkKept.refl s
  · rw [changed]
    exact (settleRepair_workKept s args now).trans
      (createRollback_workKept _ _ args now (counting admissible.fresh))

theorem completeRepairRollback_workKept
    (lease : Option MrLease) (args : CompleteRollbackArgs) (now : Time) :
    WorkKept handed counted s (s.completeRepairRollback lease args now).1 := by
  rcases completeRepairRollback_cases s lease args now with same | ⟨_, changed⟩
  · rw [same]
    exact WorkKept.refl s
  · rw [changed]
    refine WorkKept.trans ?_ (WorkKept.dropOwnerTask _ _ _)
    have ended : WorkKept handed counted s (s.updTask args.rollbackTask fun t =>
        { t with
          status := some args.taskStatus
          repairRollbackState := some args.state
          result := some args.result
          error := some (if args.succeeded then "" else args.state.failureMessage)
          updatedAt := some now }) := by
      refine WorkKept.of_task rfl rfl (HashKept.of_finished (fun _ => rfl) ?_)
      rw [TaskHash.unfinished, CompleteRollbackArgs.taskStatus]
      split <;> rfl
    exact ended.trans (WorkKept.of_task rfl rfl (HashKept.of_same rfl rfl rfl))

theorem admitFinalRepairReport_workKept
    (args : ReportArgs) (now : Time)
    (counting : (s.tasks args.reportTask).exists_ = false → counted args.reportTask) :
    WorkKept handed counted s (s.admitFinalRepairReport args now).1 := by
  unfold admitFinalRepairReport
  dsimp only
  split
  · exact WorkKept.refl s
  split
  · exact WorkKept.refl s
  split
  · exact WorkKept.refl s
  split
  · exact WorkKept.refl s
  split
  · exact WorkKept.refl s
  rename_i absent
  have original : WorkKept handed counted s (s.updTask args.repairTask fun t =>
      { t with finalRepairReportState := some args.state, updatedAt := some now }) :=
    WorkKept.of_task rfl rfl (HashKept.of_same rfl rfl rfl)
  dsimp only
  refine original.trans (WorkKept.of_task (Function.update_idem _ _ _) rfl ?_)
  refine HashKept.of_finished ?_ ?_
  · intro uncounted
    exact absurd (counting (by simpa using absent)) uncounted
  · simp [TaskHash.unfinished, TaskStatus.unfinished]

theorem rollbackStep_workKept
    (op : RollbackOp)
    (counts : ∀ task, (Op.rollback op).counts s task → counted task) :
    WorkKept handed counted s (s.rollbackStep op) := by
  cases op with
  | admitRollback args now =>
      exact admitRepairRollback_workKept s args now
        fun absent => counts args.rollbackTask ⟨rfl, absent⟩
  | complete lease args now =>
      exact completeRepairRollback_workKept s lease args now
  | admitReport args now =>
      exact admitFinalRepairReport_workKept s args now
        fun absent => counts args.reportTask ⟨rfl, absent⟩
  | setReportState repairTask reportTask state now =>
      dsimp only [rollbackStep, setFinalRepairReportState]
      split
      · exact WorkKept.refl s
      split
      · exact WorkKept.refl s
      · have original : WorkKept handed counted s (s.updTask repairTask fun t =>
            { t with finalRepairReportState := some state, updatedAt := some now }) :=
          WorkKept.of_task rfl rfl (HashKept.of_same rfl rfl rfl)
        exact original.trans (WorkKept.of_task rfl rfl (HashKept.of_same rfl rfl rfl))
  | completeReport args now =>
      dsimp only [rollbackStep, completeFinalRepairReport]
      split
      · exact WorkKept.refl s
      split
      · split <;> exact WorkKept.refl s
      · refine WorkKept.trans ?_ (WorkKept.dropOwnerTask _ _ _)
        have completed : WorkKept handed counted s (s.updTask args.reportTask fun t =>
            { t with
              status := some .completed
              result := some args.result
              error := some ""
              finalRepairReportState := some args.state
              updatedAt := some now }) :=
          WorkKept.of_task rfl rfl (HashKept.of_finished (fun _ => rfl) rfl)
        split
        all_goals
          exact completed.trans (WorkKept.of_task rfl rfl (HashKept.of_same rfl rfl rfl))

/-! ## All operations -/

theorem step_workKept (op : Op) : WorkKept (op.hands s) (op.counts s) s (s.step op) := by
  cases op with
  | lease op =>
      exact leaseStep_workKept s op
  | effect op =>
      exact effectStep_workKept s op
  | manifest op =>
      exact manifestStep_workKept s op
  | task op =>
      exact taskStep_workKept s op (fun _ hands => hands) (fun _ counts => counts)
  | auto op =>
      exact autoStep_workKept s op fun _ hands => hands
  | pipeline op =>
      exact pipelineStep_workKept s op
  | admission op =>
      cases op with
      | enqueue args =>
          exact enqueueTask_workKept s args rfl
      | enqueueWithCard args =>
          exact enqueueTaskWithCard_workKept s args rfl
      | postRepairUt args =>
          exact admitPostRepairUt_workKept s args rfl
      | reconcile mr task now =>
          exact reconcileAdmissionGate_workKept s mr task now
  | rollback op =>
      exact rollbackStep_workKept s op fun _ counts => counts
  | card op =>
      exact cardStep_workKept s op
  | expiry op =>
      exact expiryStep_workKept s op

end Broker

end MrAgent
