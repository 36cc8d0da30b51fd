import MrAgent.AdmissionFrame

namespace MrAgent

/-!
# Which operations write a card

Most broker calls never touch a card hash, and only the save script and the
expiry of a key move the two latest-card keys of a merge request. `CardsKept`
and `LatestKept` say so once per script.
-/

/-- The latest-card pointer and the latest pipeline number are unchanged. -/
structure LatestKept (before after : Broker) : Prop where
  latestCard : after.latestCard = before.latestCard
  latestPipeline : after.latestPipeline = before.latestPipeline

/-- Every card hash is unchanged, and so are the latest-card keys. -/
structure CardsKept (before after : Broker) : Prop extends LatestKept before after where
  cards : after.cards = before.cards

/-- The task calls that write a card hash. -/
def TaskOp.writesCard : TaskOp → Bool
  | .requestCancel .. | .requestUtCancel .. | .finalizeCancel .. => true
  | _ => false

namespace Op

/-- The operation may write a card hash or a latest-card key. -/
def writesCard : Op → Bool
  | task op => op.writesCard
  | admission (.enqueueWithCard _) | admission (.postRepairUt _) => true
  | admission (.reconcile ..) => true
  | rollback (.admitRollback ..) | rollback (.complete ..) => true
  | card _ => true
  | expiry (.card _) | expiry (.latestCard _) | expiry (.latestPipeline _) => true
  | _ => false

/-- The operation may move a latest-card key. -/
def movesLatest : Op → Bool
  | card (.save ..) => true
  | expiry (.latestCard _) | expiry (.latestPipeline _) => true
  | _ => false

end Op

namespace LatestKept

theorem refl (s : Broker) : LatestKept s s :=
  ⟨rfl, rfl⟩

theorem trans
    {first middle last : Broker}
    (left : LatestKept first middle)
    (right : LatestKept middle last) :
    LatestKept first last :=
  ⟨right.latestCard.trans left.latestCard, right.latestPipeline.trans left.latestPipeline⟩

end LatestKept

namespace CardsKept

theorem refl (s : Broker) : CardsKept s s :=
  ⟨LatestKept.refl s, rfl⟩

theorem trans
    {first middle last : Broker}
    (left : CardsKept first middle)
    (right : CardsKept middle last) :
    CardsKept first last :=
  ⟨left.toLatestKept.trans right.toLatestKept, right.cards.trans left.cards⟩

theorem of_frame
    {before after : Broker}
    (cards : after.cards = before.cards)
    (latestCard : after.latestCard = before.latestCard)
    (latestPipeline : after.latestPipeline = before.latestPipeline) :
    CardsKept before after :=
  ⟨⟨latestCard, latestPipeline⟩, cards⟩

theorem dropOwnerTask (s : Broker) (owner : Option WorkerId) (task : TaskId) :
    CardsKept s (s.dropOwnerTask owner task) := by
  cases owner with
  | none =>
      exact refl s
  | some worker =>
      exact of_frame rfl rfl rfl

theorem dropWaiter (s : Broker) (task : TaskId) : CardsKept s (s.dropWaiter task) := by
  unfold Broker.dropWaiter
  split
  · exact of_frame rfl rfl rfl
  · exact refl s

end CardsKept

namespace Broker

variable (s : Broker)

/-! ## Calls that never write a card -/

theorem leaseStep_cardsKept (op : LeaseOp) : CardsKept s (s.leaseStep op) := by
  obtain ⟨leases, fences, changed⟩ := leaseStep_frame s op
  rw [changed]
  exact CardsKept.of_frame rfl rfl rfl

theorem effectStep_cardsKept (op : EffectOp) : CardsKept s (s.effectStep op) := by
  cases op with
  | claim key task lease metadata now =>
      dsimp only [effectStep, claimEffect]
      repeat' split
      all_goals exact CardsKept.of_frame rfl rfl rfl
  | update key lease metadata now =>
      dsimp only [effectStep, updateEffect]
      repeat' split
      all_goals exact CardsKept.of_frame rfl rfl rfl
  | complete key task lease result now =>
      dsimp only [effectStep, completeEffect]
      repeat' split
      all_goals exact CardsKept.of_frame rfl rfl rfl

theorem manifestStep_cardsKept (op : ManifestOp) : CardsKept s (s.manifestStep op) := by
  rcases manifestStep_cases s op with same | ⟨task, manifest, now, changed⟩
  · rw [same]
    exact CardsKept.refl s
  · rw [changed]
    exact CardsKept.of_frame rfl rfl rfl

theorem transitionTask_cardsKept
    (task : TaskId) (expected : List TaskStatus) (target : TaskStatus) (lease : Option MrLease)
    (fields : TransitionFields) (now : Time) :
    CardsKept s (s.transitionTask task expected target lease fields now).1 := by
  rcases s.transitionTask_cases task expected target lease fields now with
    ⟨reply, _, refused⟩ | ⟨_, _, activeRepairs, changed⟩
  · rw [refused]
    exact CardsKept.refl s
  · rw [changed]
    exact CardsKept.of_frame rfl rfl rfl

theorem assignToWorker_cardsKept
    (task : TaskId) (lease : Option MrLease) (worker : WorkerId) (now : Time) :
    CardsKept s (s.assignToWorker task lease worker now).1 := by
  have assigned : ∀ held, CardsKept s (s.assignTask task held worker now).1 := by
    intro held
    unfold assignTask
    repeat' split
    all_goals exact CardsKept.of_frame rfl rfl rfl
  unfold assignToWorker
  split
  · split
    · exact CardsKept.refl s
    · exact assigned _
  · exact assigned none

theorem requeueStaleRepair_cardsKept
    (task : TaskId) (expected : TaskStatus) (cutoff now : Time) :
    CardsKept s (s.requeueStaleRepair task expected cutoff now).1 := by
  unfold requeueStaleRepair
  dsimp only
  split
  · exact CardsKept.refl s
  split
  · exact (CardsKept.dropOwnerTask s _ task).trans (CardsKept.of_frame rfl rfl rfl)
  · exact CardsKept.of_frame rfl rfl rfl

theorem recoverDeadTask_cardsKept
    (worker : WorkerId) (task : TaskId) (retryLimit : Nat) (now : Time) :
    CardsKept s (s.recoverDeadTask worker task retryLimit now).1 := by
  have retried : CardsKept s (s.retryDeadTask worker task retryLimit now).1 := by
    unfold retryDeadTask
    dsimp only
    repeat' split
    all_goals exact CardsKept.of_frame rfl rfl rfl
  unfold recoverDeadTask
  dsimp only
  repeat' split
  all_goals first
    | exact retried
    | exact CardsKept.of_frame rfl rfl rfl

theorem transferOrphanedTask_cardsKept
    (task : TaskId) (oldWorker : WorkerId) (lease : MrLease) (event : Option PipelineEvent)
    (now : Time) :
    CardsKept s (s.transferOrphanedTask task oldWorker lease event now).1 := by
  unfold transferOrphanedTask
  dsimp only
  repeat' split
  all_goals exact CardsKept.of_frame rfl rfl rfl

theorem finalizeCancelTask_cardsKept (task : TaskId) (args : FinalizeCancelArgs) (now : Time) :
    CardsKept s (s.finalizeCancelTask task args now) := by
  have canceled : CardsKept s (s.updTask task (canceledTask args.statusMarkdown now)) :=
    CardsKept.of_frame rfl rfl rfl
  have waited :=
    (canceled.trans (CardsKept.dropOwnerTask _ (s.tasks task).workerId task)).trans
      (CardsKept.dropWaiter _ task)
  have ended : ∀ s : Broker,
      CardsKept s ((s.setPipelineWaiting task none).setActiveRepair task none) :=
    fun _ => CardsKept.of_frame rfl rfl rfl
  have opened : ∀ s : Broker, CardsKept s (s.setGate (some args.mr) none) :=
    fun _ => CardsKept.of_frame rfl rfl rfl
  rw [finalizeCancelTask]
  split
  · exact (waited.trans (ended _)).trans (opened _)
  · exact waited.trans (ended _)

theorem finalizeCancelAuto_cardsKept
    (task : TaskId) (mr : MrKey) (owner : Option (WorkerId × Option Nat)) (now : Time) :
    CardsKept s (s.finalizeCancelAuto task mr owner now) := by
  unfold finalizeCancelAuto
  split
  · split
    · exact CardsKept.of_frame rfl rfl rfl
    · exact CardsKept.refl s
  · exact CardsKept.refl s

theorem autoStep_cardsKept (op : AutoOp) : CardsKept s (s.autoStep op) := by
  cases op with
  | record task cursor lease now =>
      dsimp only [autoStep, recordAutoCommandCompleted]
      repeat' split
      all_goals exact CardsKept.of_frame rfl rfl rfl
  | pause task triageTask cursor lease now =>
      dsimp only [autoStep, pauseAutoForTriage]
      repeat' split
      all_goals exact CardsKept.of_frame rfl rfl rfl
  | resume triageTask lease now =>
      dsimp only [autoStep, resumeAutoAfterTriage]
      repeat' split
      all_goals first
        | exact CardsKept.of_frame rfl rfl rfl
        | exact (CardsKept.dropOwnerTask s _ _).trans (CardsKept.of_frame rfl rfl rfl)

theorem publishLoop_cardsKept (event : PipelineEvent) (tasks : List TaskId) :
    CardsKept s (tasks.foldl (publishTo event) s) := by
  induction tasks generalizing s with
  | nil =>
      exact CardsKept.refl s
  | cons task rest ih =>
      have queued : CardsKept s (publishTo event s task) := by
        unfold publishTo
        dsimp only
        repeat' split
        all_goals exact CardsKept.of_frame rfl rfl rfl
      exact queued.trans (ih (publishTo event s task))

theorem pipelineStep_cardsKept (op : PipelineOp) : CardsKept s (s.pipelineStep op) := by
  cases op with
  | register task args now =>
      dsimp only [pipelineStep, registerPipelineWait]
      split <;> exact CardsKept.of_frame rfl rfl rfl
  | publish event =>
      have cached : CardsKept s
          ((s.setEvent event.shaKey event).setEvent event.pipelineKey event) :=
        CardsKept.of_frame rfl rfl rfl
      dsimp only [pipelineStep, publishPipelineEvent]
      split
      · exact cached
      · exact cached.trans (publishLoop_cardsKept _ event _)
  | resumeCached task =>
      dsimp only [pipelineStep, resumePipelineIfCached]
      repeat' split
      all_goals exact CardsKept.of_frame rfl rfl rfl
  | claim task event lease now =>
      dsimp only [pipelineStep, claimPipelineResume]
      repeat' split
      all_goals first
        | exact CardsKept.of_frame rfl rfl rfl
        | exact (CardsKept.dropWaiter s task).trans (CardsKept.of_frame rfl rfl rfl)
  | complete task event =>
      dsimp only [pipelineStep, completePipelineResume]
      repeat' split
      all_goals first
        | exact CardsKept.of_frame rfl rfl rfl
        | exact (CardsKept.dropWaiter s task).trans (CardsKept.of_frame rfl rfl rfl)
  | dropStale task =>
      dsimp only [pipelineStep, dropStaleWait]
      split <;> exact CardsKept.of_frame rfl rfl rfl
  | deferFallback task now =>
      exact CardsKept.of_frame rfl rfl rfl

theorem startTask_cardsKept
    (envelope : TaskEnvelope) (context : AdmissionContext) (priority : Bool) :
    CardsKept s (s.startTask envelope context priority) := by
  unfold startTask
  dsimp only
  split <;> split <;> exact CardsKept.of_frame rfl rfl rfl

theorem inspectOrRecover_cardsKept (args : EnqueueArgs) (task : TaskId) :
    CardsKept s (s.inspectOrRecover args task).1 := by
  unfold inspectOrRecover
  dsimp only
  repeat' split
  all_goals exact CardsKept.of_frame rfl rfl rfl

theorem enqueueTask_cardsKept (args : EnqueueArgs) : CardsKept s (s.enqueueTask args).1 := by
  have pieces : EnqueuePieces args CardsKept CardsKept :=
    { trans := CardsKept.trans
      after := CardsKept.trans
      quiet := id
      inspected := fun s task => inspectOrRecover_cardsKept s args task
      released := fun _ => CardsKept.of_frame rfl rfl rfl
      deduplicated := fun _ _ => CardsKept.of_frame rfl rfl rfl
      created := fun s => startTask_cardsKept s _ _ _ }
  exact pieces.enqueueTask s

theorem admitFinalRepairReport_cardsKept (args : ReportArgs) (now : Time) :
    CardsKept s (s.admitFinalRepairReport args now).1 := by
  unfold admitFinalRepairReport
  dsimp only
  repeat' split
  all_goals exact CardsKept.of_frame rfl rfl rfl

theorem setFinalRepairReportState_cardsKept
    (repairTask reportTask : TaskId) (state : FinalRepairReportState) (now : Time) :
    CardsKept s (s.setFinalRepairReportState repairTask reportTask state now).1 := by
  unfold setFinalRepairReportState
  dsimp only
  repeat' split
  all_goals exact CardsKept.of_frame rfl rfl rfl

theorem completeFinalRepairReport_cardsKept (args : CompleteReportArgs) (now : Time) :
    CardsKept s (s.completeFinalRepairReport args now).1 := by
  unfold completeFinalRepairReport
  dsimp only
  repeat' split
  all_goals first
    | exact CardsKept.refl s
    | refine CardsKept.trans ?_ (CardsKept.dropOwnerTask _ _ _)
      exact CardsKept.of_frame rfl rfl rfl

/-! ## Calls that write one card -/

theorem freshAdmission_latestKept (args : CardEnqueueArgs) (items : List RepairItem) :
    LatestKept s (s.freshAdmission args items) := by
  rw [freshAdmission_eq]
  exact (startTask_cardsKept s _ _ _).toLatestKept.trans ⟨rfl, rfl⟩

theorem forgetCandidate_cardsKept (args : CardEnqueueArgs) (candidate : TaskId) :
    CardsKept s (s.forgetCandidate args candidate) := by
  unfold forgetCandidate
  dsimp only
  repeat' split
  all_goals exact CardsKept.of_frame rfl rfl rfl

theorem completeCandidate_cardsKept (args : CardEnqueueArgs) (candidate : TaskId) :
    CardsKept s (s.completeCandidate args candidate) := by
  unfold completeCandidate
  dsimp only
  split <;> exact CardsKept.of_frame rfl rfl rfl

theorem admitCandidate_latestKept
    (args : CardEnqueueArgs) (candidate : TaskId) (incomplete : Bool) :
    LatestKept s (s.admitCandidate args candidate incomplete).1 := by
  unfold admitCandidate
  dsimp only
  split
  · exact LatestKept.refl s
  split
  · exact LatestKept.refl s
  · have completed := (completeCandidate_cardsKept s args candidate).toLatestKept
    cases incomplete
    · split <;> exact ⟨rfl, rfl⟩
    · split <;> exact completed.trans ⟨rfl, rfl⟩

theorem enqueueTaskWithCard_latestKept (args : CardEnqueueArgs) :
    LatestKept s (s.enqueueTaskWithCard args).1 := by
  have pieces : CardEnqueuePieces args LatestKept LatestKept :=
    { refl := LatestKept.refl
      trans := LatestKept.trans
      after := LatestKept.trans
      quiet := id
      released := fun _ => ⟨rfl, rfl⟩
      deduplicated := fun _ _ => ⟨rfl, rfl⟩
      touched := fun _ _ => ⟨rfl, rfl⟩
      forgotten := fun s candidate => (forgetCandidate_cardsKept s args candidate).toLatestKept
      candidate := fun s candidate => admitCandidate_latestKept s args candidate
      fresh := fun s items => freshAdmission_latestKept s args items
      created := fun s => (startTask_cardsKept s _ _ _).toLatestKept.trans ⟨rfl, rfl⟩ }
  exact pieces.enqueueTaskWithCard s

theorem admitPostRepairUt_latestKept (args : PostRepairUtArgs) :
    LatestKept s (s.admitPostRepairUt args).1 := by
  unfold admitPostRepairUt
  dsimp only
  repeat' split
  all_goals first
    | exact LatestKept.refl s
    | exact (startTask_cardsKept s args.envelope args.context true).toLatestKept.trans ⟨rfl, rfl⟩

theorem releaseGate_cardsKept (mr : MrKey) (task : TaskId) :
    CardsKept s (s.releaseGate mr task) := by
  unfold releaseGate
  dsimp only
  split <;> exact CardsKept.of_frame rfl rfl rfl

theorem failAdmission_cardsKept (mr : MrKey) (task : TaskId) (now : Time) :
    CardsKept s (s.failAdmission mr task now) := by
  unfold failAdmission
  refine CardsKept.trans ?_ (releaseGate_cardsKept _ mr task)
  exact CardsKept.of_frame rfl rfl rfl

theorem reconcileAdmissionGate_latestKept (mr : MrKey) (task : TaskId) (now : Time) :
    LatestKept s (s.reconcileAdmissionGate mr task now).1 := by
  have finished : ∀ context, LatestKept s (s.finishAdmission mr task context now) := by
    intro context
    unfold finishAdmission
    dsimp only
    split <;> exact ⟨rfl, rfl⟩
  unfold reconcileAdmissionGate
  dsimp only
  repeat' split
  all_goals first
    | exact LatestKept.refl s
    | exact finished _
    | exact (failAdmission_cardsKept s mr task now).toLatestKept
    | exact (releaseGate_cardsKept s mr task).toLatestKept
    | exact ⟨rfl, rfl⟩

theorem repointPausedAuto_cardsKept (args : RollbackArgs) (now : Time) :
    CardsKept s (s.repointPausedAuto args now) := by
  unfold repointPausedAuto
  repeat' split
  all_goals exact CardsKept.of_frame rfl rfl rfl

theorem settleRepair_cardsKept (args : RollbackArgs) (now : Time) :
    CardsKept s (s.settleRepair args now) := by
  have settled : CardsKept s (s.endRepair args now) := by
    unfold endRepair
    refine CardsKept.trans ?_ (CardsKept.dropOwnerTask _ _ _)
    exact CardsKept.of_frame rfl rfl rfl
  unfold settleRepair
  split
  · exact CardsKept.refl s
  · exact CardsKept.refl s
  · refine CardsKept.trans ?_ (repointPausedAuto_cardsKept _ args now)
    exact settled.trans (CardsKept.of_frame rfl rfl rfl)
  · refine CardsKept.trans ?_ (repointPausedAuto_cardsKept _ args now)
    exact settled.trans (CardsKept.of_frame rfl rfl rfl)
  · exact settled.trans (CardsKept.of_frame rfl rfl rfl)
  · exact settled.trans (CardsKept.of_frame rfl rfl rfl)

theorem createRollback_latestKept (count : Nat) (args : RollbackArgs) (now : Time) :
    LatestKept s (s.createRollback count args now) :=
  ⟨rfl, rfl⟩

theorem rollbackStep_latestKept (op : RollbackOp) : LatestKept s (s.rollbackStep op) := by
  cases op with
  | admitRollback args now =>
      change LatestKept s (s.admitRepairRollback args now).1
      rcases admitRepairRollback_cases s args now with ⟨same, _⟩ | ⟨_, _, count, changed⟩
      · rw [same]
        exact LatestKept.refl s
      · rw [changed]
        exact (settleRepair_cardsKept s args now).toLatestKept.trans
          (createRollback_latestKept _ _ args now)
  | complete lease args now =>
      change LatestKept s (s.completeRepairRollback lease args now).1
      rcases completeRepairRollback_cases s lease args now with same | ⟨_, changed⟩
      · rw [same]
        exact LatestKept.refl s
      · rw [changed]
        refine LatestKept.trans ?_ (CardsKept.dropOwnerTask _ _ _).toLatestKept
        exact ⟨rfl, rfl⟩
  | admitReport args now =>
      exact (admitFinalRepairReport_cardsKept s args now).toLatestKept
  | setReportState repairTask reportTask state now =>
      exact (setFinalRepairReportState_cardsKept s repairTask reportTask state now).toLatestKept
  | completeReport args now =>
      exact (completeFinalRepairReport_cardsKept s args now).toLatestKept

theorem finalizeRepairCancel_latestKept
    (task : TaskId) (lease : Option MrLease) (args : FinalizeCancelArgs) (now : Time) :
    LatestKept s (s.finalizeRepairCancel task lease args now).1 := by
  unfold finalizeRepairCancel
  dsimp only
  repeat' split
  all_goals first
    | exact LatestKept.refl s
    | refine LatestKept.trans ?_ (finalizeCancelAuto_cardsKept _ _ _ _ now).toLatestKept
      refine (finalizeCancelTask_cardsKept s task args now).toLatestKept.trans ?_
      unfold finalizeCancelCard
      split <;> exact ⟨rfl, rfl⟩

theorem taskStep_cardsKept
    (op : TaskOp)
    (quiet : op.writesCard = false) :
    CardsKept s (s.taskStep op) := by
  cases op with
  | transition task call lease fields now =>
      exact transitionTask_cardsKept s task _ _ lease fields now
  | assign task lease worker now =>
      exact assignToWorker_cardsKept s task lease worker now
  | heartbeat task worker token now =>
      dsimp only [taskStep, heartbeatTask]
      split <;> exact CardsKept.of_frame rfl rfl rfl
  | failStale task lease cutoff error now =>
      dsimp only [taskStep, failStaleRunningTask]
      repeat' split
      all_goals exact CardsKept.of_frame rfl rfl rfl
  | requeueRepair task expected cutoff now =>
      exact requeueStaleRepair_cardsKept s task expected cutoff now
  | requeueAuto task cutoff retryLimit now =>
      dsimp only [taskStep, requeueStaleAutoWorkflow]
      repeat' split
      all_goals exact CardsKept.of_frame rfl rfl rfl
  | recoverDead worker task retryLimit now =>
      exact recoverDeadTask_cardsKept s worker task retryLimit now
  | transfer task oldWorker lease event now =>
      exact transferOrphanedTask_cardsKept s task oldWorker lease event now
  | deliveryFailure task messageId error now =>
      exact CardsKept.of_frame rfl rfl rfl
  | ackInbox worker messageId =>
      exact CardsKept.of_frame rfl rfl rfl
  | requestCancel | requestUtCancel | finalizeCancel =>
      cases quiet

theorem taskStep_latestKept (op : TaskOp) : LatestKept s (s.taskStep op) := by
  cases writes : op.writesCard with
  | false =>
      exact (taskStep_cardsKept s op writes).toLatestKept
  | true =>
      cases op with
      | requestCancel task args statusMarkdown notification now =>
          dsimp only [taskStep, requestRepairCancel]
          repeat' split
          all_goals exact ⟨rfl, rfl⟩
      | requestUtCancel task args now =>
          dsimp only [taskStep, requestPostRepairUtCancel]
          repeat' split
          all_goals exact ⟨rfl, rfl⟩
      | finalizeCancel task lease args now =>
          exact finalizeRepairCancel_latestKept s task lease args now
      | _ =>
          cases writes

theorem cardStep_latestKept
    (op : CardOp)
    (notSave : ∀ mr cardId pipelineId card, op ≠ .save mr cardId pipelineId card) :
    LatestKept s (s.cardStep op) := by
  cases op with
  | save mr cardId pipelineId card =>
      exact absurd rfl (notSave mr cardId pipelineId card)
  | recordMessage cardId messageId receiveId now =>
      dsimp only [cardStep, recordCardMessage]
      repeat' split
      all_goals exact ⟨rfl, rfl⟩
  | transition cardId expected target statusMarkdown now =>
      dsimp only [cardStep, transitionTriageCard]
      split <;> exact ⟨rfl, rfl⟩
  | transitionNotify task cardId expected target statusMarkdown notification now =>
      dsimp only [cardStep, transitionTriageCardWithNotification]
      repeat' split
      all_goals exact ⟨rfl, rfl⟩
  | progress task cardId args notification now =>
      dsimp only [cardStep, updateRepairProgressWithNotification]
      split
      · exact ⟨rfl, rfl⟩
      split <;> exact ⟨rfl, rfl⟩
  | reconcile task cardId expectedRevision args notification now =>
      dsimp only [cardStep, reconcileRepairCardWithNotification]
      repeat' split
      all_goals exact ⟨rfl, rfl⟩
  | correctLate task cardId args notification now =>
      dsimp only [cardStep, correctLateRepairTerminal]
      repeat' split
      all_goals exact ⟨rfl, rfl⟩
  | updateUt task cardId state terminal notification now =>
      dsimp only [cardStep, updatePostRepairUtWithNotification]
      repeat' split
      all_goals exact ⟨rfl, rfl⟩
  | publishEligibility task cardId commitCount revision now =>
      exact ⟨rfl, rfl⟩
  | notify notification =>
      dsimp only [cardStep, enqueueNotification]
      split <;> exact ⟨rfl, rfl⟩
  | fallback cardId notification now =>
      dsimp only [cardStep, enqueueCardFallback]
      repeat' split
      all_goals exact ⟨rfl, rfl⟩

/-! ## All operations -/

variable (op : Op)

theorem step_cardsKept
    (quiet : op.writesCard = false) :
    CardsKept s (s.step op) := by
  cases op with
  | lease op =>
      exact leaseStep_cardsKept s op
  | effect op =>
      exact effectStep_cardsKept s op
  | manifest op =>
      exact manifestStep_cardsKept s op
  | task op =>
      exact taskStep_cardsKept s op quiet
  | auto op =>
      exact autoStep_cardsKept s op
  | pipeline op =>
      exact pipelineStep_cardsKept s op
  | admission op =>
      cases op with
      | enqueue args =>
          exact enqueueTask_cardsKept s args
      | enqueueWithCard | postRepairUt | reconcile =>
          cases quiet
  | rollback op =>
      cases op with
      | admitReport args now =>
          exact admitFinalRepairReport_cardsKept s args now
      | setReportState repairTask reportTask state now =>
          exact setFinalRepairReportState_cardsKept s repairTask reportTask state now
      | completeReport args now =>
          exact completeFinalRepairReport_cardsKept s args now
      | admitRollback | complete =>
          cases quiet
  | card op =>
      cases quiet
  | expiry op =>
      cases op with
      | card | latestCard | latestPipeline =>
          cases quiet
      | dedup | taskCard | pipelineEvent | waiters | notification =>
          exact CardsKept.of_frame rfl rfl rfl

theorem step_latestKept
    (still : op.movesLatest = false) :
    LatestKept s (s.step op) := by
  cases op with
  | lease op =>
      exact (leaseStep_cardsKept s op).toLatestKept
  | effect op =>
      exact (effectStep_cardsKept s op).toLatestKept
  | manifest op =>
      exact (manifestStep_cardsKept s op).toLatestKept
  | task op =>
      exact taskStep_latestKept s op
  | auto op =>
      exact (autoStep_cardsKept s op).toLatestKept
  | pipeline op =>
      exact (pipelineStep_cardsKept s op).toLatestKept
  | admission op =>
      cases op with
      | enqueue args =>
          exact (enqueueTask_cardsKept s args).toLatestKept
      | enqueueWithCard args =>
          exact enqueueTaskWithCard_latestKept s args
      | postRepairUt args =>
          exact admitPostRepairUt_latestKept s args
      | reconcile mr task now =>
          exact reconcileAdmissionGate_latestKept s mr task now
  | rollback op =>
      exact rollbackStep_latestKept s op
  | card op =>
      refine cardStep_latestKept s op ?_
      intro mr cardId pipelineId card saves
      rw [saves] at still
      cases still
  | expiry op =>
      cases op with
      | latestCard | latestPipeline =>
          cases still
      | dedup | card | taskCard | pipelineEvent | waiters | notification =>
          exact ⟨rfl, rfl⟩

end Broker

end MrAgent
