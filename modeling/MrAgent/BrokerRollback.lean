import MrAgent.BrokerManifest
import MrAgent.BrokerTask

namespace MrAgent

/-!
# Rollback and report scripts

`ADMIT_REPAIR_ROLLBACK_LUA` with its five triggers,
`COMPLETE_REPAIR_ROLLBACK_LUA`, and the admission and completion of the final
repair report. Both children of a repair are guarded against a second
admission by an `EXISTS` test on the child's own key.
-/

/-- What `request_repair_rollback` passes to the admission script. -/
structure RollbackArgs where
  repairTask : TaskId
  rollbackTask : TaskId
  mr : MrKey
  cardId : CardId
  openMessageId : String
  senderId : String
  revision : Nat
  trigger : RollbackTrigger
  prUrl : String
  createdAt : Time
  manifest : RepairCommitManifest
deriving DecidableEq

namespace RollbackArgs

/-- The envelope of the rollback task. -/
def envelope (args : RollbackArgs) : TaskEnvelope where
  taskId := args.rollbackTask
  kind := .repairRollback
  source := "feishu"
  mr := some args.mr
  prUrl := args.prUrl
  command := "/rollback-repair"
  payload := { repairTaskId := some args.repairTask }
  idempotencyKey := "repair-rollback:" ++ args.repairTask.text
  createdAt := args.createdAt

/-- The admission context of the rollback task. -/
def context (args : RollbackArgs) : AdmissionContext where
  cardId := args.cardId
  openMessageId := args.openMessageId

/-- The queued rollback state stored in both tasks. -/
def state (args : RollbackArgs) : RepairRollbackState where
  rollbackTaskId := args.rollbackTask
  repairTaskId := args.repairTask
  status := .queued
  trigger := args.trigger
  requestedBy := args.senderId
  expectedRemoteHead := args.manifest.finalRepairSha

/-- The card text of a queued rollback. -/
def statusMarkdown (args : RollbackArgs) : String :=
  match args.trigger with
  | .cancel => "修复已停止，正在撤回已提交修改。"
  | .postRepairUtCancel => "补测已停止，正在撤回本次补测提交。"
  | .postRepairUtFailure => "补测未完成，正在撤回本次补测提交。"
  | .autoFailure => "修复未成功，正在撤回本次自动修改"
  | .postRepair | .other _ =>
    "正在安全撤回本次自动修复产生的 " ++ toString args.manifest.entries.length ++ " 个提交。"

/-- The result stored for a repair that its automatic rollback replaces. -/
def autoResult : String :=
  "\x7b\"auto_rollback\":\"queued\",\"ok\":true,\"trigger\":\"auto_failure\"\x7d"

end RollbackArgs

namespace Broker

/-- The per-trigger precondition of the rollback admission. -/
def rollbackTriggerOk (stored : TaskHash) (card : CardHash) (args : RollbackArgs) : Bool :=
  match args.trigger with
  | .postRepair => stored.status == some .completed || stored.status == some .failed
  | .cancel =>
    stored.cancelRequested &&
      !(stored.status == some .completed || stored.status == some .failed)
  | .autoFailure =>
    match stored.pipelineRepairState with
    | some repair =>
      stored.status == some .running && repair.autoRollbackRequired &&
        repair.verifiedSelectedSuccessCount == some 0
    | none => false
  | .postRepairUtFailure =>
    (stored.status == some .running || stored.status == some .publishing) &&
      (card.postRepairUt.getD {}).taskId == some args.repairTask
  | .postRepairUtCancel =>
    stored.cancelRequested &&
      !(stored.status == some .completed || stored.status == some .failed) &&
      (card.postRepairUt.getD {}).taskId == some args.repairTask
  | .other _ => false

/--
The paused workflow of the merge request follows the gate from the repair to
its rollback. Only two of the five triggers do this.
-/
def repointPausedAuto (s : Broker) (args : RollbackArgs) (now : Time) : Broker :=
  match s.pausedAuto (some args.mr) with
  | none => s
  | some auto =>
    if (s.tasks auto).auto.pausedByTriageTaskId = some args.repairTask then
      s.updTask auto fun t =>
        { t with
          auto := { t.auto with pausedByTriageTaskId := some args.rollbackTask }
          updatedAt := some now }
    else s

/-- The fields of the original task that depend on the trigger. -/
def settledRepair (args : RollbackArgs) (now : Time) (t : TaskHash) : TaskHash :=
  match args.trigger with
  | .cancel =>
    { t with
      status := some .canceled
      result := some args.statusMarkdown
      error := some ""
      updatedAt := some now }
  | .autoFailure =>
    { t with
      status := some .completed
      result := some RollbackArgs.autoResult
      error := some ""
      updatedAt := some now }
  | .postRepairUtFailure =>
    { t with status := some .failed, error := some "", updatedAt := some now }
  | .postRepairUtCancel =>
    { t with status := some .canceled, error := some "", updatedAt := some now }
  | .postRepair | .other _ => t

/-- End the original task and take it from its worker. -/
def endRepair (s : Broker) (args : RollbackArgs) (now : Time) : Broker :=
  (s.updTask args.repairTask (settledRepair args now)).dropOwnerTask
    (s.tasks args.repairTask).workerId args.repairTask

/--
The writes that depend on the trigger. A post-repair rollback leaves the
finished repair as it is; the other four end it.
-/
def settleRepair (s : Broker) (args : RollbackArgs) (now : Time) : Broker :=
  match args.trigger with
  | .postRepair | .other _ => s
  | .cancel =>
    ((s.endRepair args now).setPipelineWaiting args.repairTask none).repointPausedAuto args now
  | .autoFailure =>
    let s := (s.endRepair args now).setActiveRepair args.repairTask none
    (s.setPipelineWaiting args.repairTask none).repointPausedAuto args now
  | .postRepairUtFailure | .postRepairUtCancel =>
    (s.endRepair args now).setPipelineWaiting args.repairTask none

/-- The card writes of the rollback admission. -/
def rollbackCard
    (entryCount : Nat)
    (args : RollbackArgs)
    (now : Time)
    (card : CardHash) : CardHash :=
  if args.trigger.postRepairUt then
    { card with
      postRepairUt := some
        { (card.postRepairUt.getD {}) with
          status := if args.trigger = .postRepairUtCancel then .canceling else .failed
          statusMarkdown := args.statusMarkdown
          rollbackTaskId := some args.rollbackTask
          rollbackStatus := some .queued }
      activeTaskId := some args.rollbackTask
      activeCategory := some "unit_test"
      revision := some (args.revision + 1)
      updatedAt := some now }
  else
    { card with
      state := some .rollbackQueued
      statusMarkdown := some args.statusMarkdown
      activeTaskId := some args.rollbackTask
      activeCategory := some ""
      rollbackRepairTaskId := some args.repairTask
      rollbackCommitCount := some entryCount
      rollbackTaskId := some args.rollbackTask
      rollbackStatus := some .queued
      rollbackCommitSha := some ""
      rollbackTrigger := some args.trigger
      revision := some (args.revision + 1)
      updatedAt := some now }

/-- The writes that create the rollback task and hand it the gate. -/
def createRollback
    (s : Broker)
    (entryCount : Nat)
    (args : RollbackArgs)
    (now : Time) : Broker :=
  let s := s.updTask args.repairTask fun t =>
    { t with repairRollbackState := some args.state, updatedAt := some now }
  let s := s.updTask args.rollbackTask fun t =>
    { t with
      payload := some args.envelope
      status := some .queued
      attempt := some 0
      createdAt := some now
      updatedAt := some now
      admissionState := some .enqueued
      admissionContext := some args.context
      repairRollbackState := some args.state }
  let ingressId := s.nextMessageId
  let s := s.pushIngress args.rollbackTask
  let s := s.updTask args.rollbackTask fun t => { t with ingressMessageId := some ingressId }
  let s := s.setGate (some args.mr) (some args.rollbackTask)
  let s := s.setActiveRepair args.rollbackTask (some now)
  let s := s.addMrTask (some args.mr) args.rollbackTask
  let s := s.setTaskCard args.rollbackTask args.cardId
  s.updCard args.cardId (rollbackCard entryCount args now)

/-- `ADMIT_REPAIR_ROLLBACK_LUA`; the second component is the reported task. -/
def admitRepairRollback
    (s : Broker)
    (args : RollbackArgs)
    (now : Time) : Broker × Int × Option TaskId :=
  let stored := s.tasks args.repairTask
  let card := s.cards args.cardId
  if !stored.exists_ || !card.exists_ then (s, -1, none)
  else
    match stored.repairCommitManifest with
    | none => (s, -2, none)
    | some manifest =>
      if !manifest.frozen || manifest.entries.isEmpty then (s, -2, none)
      else if card.cardId ≠ some args.cardId || card.openMessageId ≠ some args.openMessageId ||
          card.receiveId ≠ some args.senderId ||
          manifest.authorizedActorId ≠ args.senderId then (s, -3, none)
      else if (s.tasks args.rollbackTask).exists_ then (s, 0, some args.rollbackTask)
      else if card.revision ≠ some args.revision then (s, -3, none)
      else if !rollbackTriggerOk stored card args then (s, -4, none)
      else
        let active := s.gates (some args.mr)
        if active ≠ none && active ≠ some args.repairTask &&
            active ≠ some args.rollbackTask then (s, -5, active)
        else
          ((s.settleRepair args now).createRollback manifest.entries.length args now,
            1, some args.rollbackTask)

/-- What `complete_repair_rollback` passes to its script. -/
structure CompleteRollbackArgs where
  rollbackTask : TaskId
  repairTask : TaskId
  mr : MrKey
  cardId : CardId
  state : RepairRollbackState
  result : String
deriving DecidableEq

namespace CompleteRollbackArgs

/-- The rollback succeeded. -/
def succeeded (args : CompleteRollbackArgs) : Bool :=
  args.state.status == .succeeded

/-- The task status a rollback state stands for. -/
def taskStatus (args : CompleteRollbackArgs) : TaskStatus :=
  if args.succeeded then .completed else .failed

/-- The card state of a rollback of the repair itself. -/
def cardState (args : CompleteRollbackArgs) : TriageCardState :=
  if args.state.trigger.postRepairUt then .repairSucceeded
  else if args.succeeded then .rollbackSucceeded
  else .rollbackFailed

/-- `failure_message`, or the default text. -/
def failureText (args : CompleteRollbackArgs) : String :=
  if args.state.failureMessage = "" then "无法确认安全撤回条件" else args.state.failureMessage

/-- The card text of a finished rollback. -/
def statusMarkdown (args : CompleteRollbackArgs) : String :=
  let commit := String.ofList (args.state.rollbackCommitSha.toList.take 12)
  match args.state.trigger, args.succeeded with
  | .postRepairUtCancel, true => "补测已取消，本次补测提交已撤回。撤回 Commit：`" ++ commit ++ "`"
  | .postRepairUtFailure, true => "补测失败，本次补测提交已撤回。撤回 Commit：`" ++ commit ++ "`"
  | .postRepairUtCancel, false | .postRepairUtFailure, false =>
    "补测已停止，但自动撤回未完成：" ++ args.failureText
  | .autoFailure, true => "修复失败，本次自动修改已撤回。撤回 Commit：`" ++ commit ++ "`"
  | .autoFailure, false => "修复失败，自动撤回未完成：" ++ args.failureText
  | _, true => "撤回成功。撤回 Commit：`" ++ commit ++ "`"
  | _, false => "撤回失败：" ++ args.failureText

end CompleteRollbackArgs

/-- The card writes of `COMPLETE_REPAIR_ROLLBACK_LUA`. -/
def completeRollbackCard
    (args : CompleteRollbackArgs)
    (now : Time)
    (card : CardHash) : CardHash :=
  let revision := some (card.revision.getD 0 + 1)
  if args.state.trigger.postRepairUt then
    { card with
      postRepairUt := some
        { (card.postRepairUt.getD {}) with
          status :=
            if args.succeeded then
              if args.state.trigger = .postRepairUtCancel then .canceled else .failed
            else .rollbackFailed
          statusMarkdown := args.statusMarkdown
          outcomeReason := args.statusMarkdown
          rollbackStatus := some args.state.status
          rollbackCommitSha := args.state.rollbackCommitSha }
      activeTaskId := none
      activeCategory := some ""
      revision := revision
      updatedAt := some now }
  else
    { card with
      state := some args.cardState
      statusMarkdown := some args.statusMarkdown
      activeTaskId := none
      activeCategory := some ""
      rollbackStatus := some args.state.status
      rollbackCommitSha := some args.state.rollbackCommitSha
      revision := revision
      updatedAt := some now }

/-- The rollback already recorded a final outcome. -/
def rollbackSettled (stored : TaskHash) : Bool :=
  (stored.status == some .completed || stored.status == some .failed) &&
    match stored.repairRollbackState with
    | some state => state.status == .succeeded || state.status == .failed
    | none => false

/-- The lease check of the completion reads the rollback task's own merge request. -/
def rollbackLeaseOk (s : Broker) (mr : MrKey) (lease : Option MrLease) : Bool :=
  match lease with
  | some held => s.leases mr == some (held.workerId, held.fencingToken)
  | none => true

/-- `COMPLETE_REPAIR_ROLLBACK_LUA`. -/
def completeRepairRollback
    (s : Broker)
    (lease : Option MrLease)
    (args : CompleteRollbackArgs)
    (now : Time) : Broker × Int :=
  let stored := s.tasks args.rollbackTask
  let card := s.cards args.cardId
  if !stored.exists_ || !(s.tasks args.repairTask).exists_ || !card.exists_ then (s, -1)
  else if !s.rollbackLeaseOk args.mr lease then (s, -2)
  else if args.state.trigger.postRepairUt &&
      (card.postRepairUt.getD {}).taskId ≠ some args.state.repairTaskId then (s, -3)
  else if rollbackSettled stored then (s, 0)
  else if stored.status ∉
      [some TaskStatus.running, some .publishing, some .assigned, some .failed] then (s, -3)
  else
    let s := s.updTask args.rollbackTask fun t =>
      { t with
        status := some args.taskStatus
        repairRollbackState := some args.state
        result := some args.result
        error := some (if args.succeeded then "" else args.state.failureMessage)
        updatedAt := some now }
    let s := s.updTask args.repairTask fun t =>
      { t with repairRollbackState := some args.state, updatedAt := some now }
    let s := s.updCard args.cardId (completeRollbackCard args now)
    let s := s.setActiveRepair args.rollbackTask none
    (s.dropOwnerTask stored.workerId args.rollbackTask, 1)

/-- What `admit_final_repair_report` passes to its script. -/
structure ReportArgs where
  repairTask : TaskId
  reportTask : TaskId
  prUrl : String
  createdAt : Time
deriving DecidableEq

namespace ReportArgs

/-- The envelope of the report task. -/
def envelope (args : ReportArgs) : TaskEnvelope where
  taskId := args.reportTask
  kind := .repairReport
  source := "repair_report"
  mr := none
  prUrl := args.prUrl
  command := "/summarize-repair"
  payload := { repairTaskId := some args.repairTask }
  idempotencyKey := "final-repair-report:" ++ args.repairTask.text
  createdAt := args.createdAt

/-- The queued report state stored in both tasks. -/
def state (args : ReportArgs) : FinalRepairReportState where
  status := .queued
  reportTaskId := some args.reportTask

end ReportArgs

/-- The stored report state is final. -/
def reportSettled (stored : TaskHash) : Bool :=
  match stored.finalRepairReportState with
  | some state => state.status.terminal
  | none => false

/-- `ADMIT_FINAL_REPAIR_REPORT_LUA`. -/
def admitFinalRepairReport
    (s : Broker)
    (args : ReportArgs)
    (now : Time) : Broker × Int × Option TaskId :=
  let stored := s.tasks args.repairTask
  if !stored.exists_ then (s, -1, none)
  else if !stored.terminal then (s, -2, none)
  else if (stored.repairCommitManifest.map (·.entries)).getD [] = [] then (s, -3, none)
  else if reportSettled stored then
    (s, 0, (stored.finalRepairReportState.bind (·.reportTaskId)) <|> some args.reportTask)
  else if (s.tasks args.reportTask).exists_ then (s, 0, some args.reportTask)
  else
    let s := s.updTask args.repairTask fun t =>
      { t with finalRepairReportState := some args.state, updatedAt := some now }
    let s := s.updTask args.reportTask fun t =>
      { t with
        payload := some args.envelope
        status := some .queued
        attempt := some 0
        workerId := none
        fencingToken := none
        result := some ""
        error := some ""
        createdAt := some now
        updatedAt := some now
        heartbeatAt := some now
        cancel := { t.cancel with requested := some false }
        delivery := { t.delivery with attempt := some 0 }
        admissionState := some .enqueued
        admissionContext := some {}
        finalRepairReportState := some args.state }
    let ingressId := s.nextMessageId
    let s := s.pushReportIngress args.reportTask
    let s := s.updTask args.reportTask fun t => { t with ingressMessageId := some ingressId }
    (s.setActiveReport args.reportTask (some now), 1, some args.reportTask)

/-- `set_final_repair_report_state`: refused once a final state is stored. -/
def setFinalRepairReportState
    (s : Broker)
    (repairTask reportTask : TaskId)
    (state : FinalRepairReportState)
    (now : Time) : Broker × Bool :=
  let stored := s.tasks repairTask
  if !stored.exists_ then (s, false)
  else if reportSettled stored then
    (s, stored.finalRepairReportState.map (·.inputDigest) = some state.inputDigest)
  else
    let write := fun t : TaskHash =>
      { t with finalRepairReportState := some state, updatedAt := some now }
    ((s.updTask repairTask write).updTask reportTask write, true)

/-- What `complete_final_repair_report` passes to its script. -/
structure CompleteReportArgs where
  reportTask : TaskId
  repairTask : TaskId
  state : FinalRepairReportState
  result : String
  input : Option String
deriving DecidableEq

/-- `COMPLETE_FINAL_REPAIR_REPORT_LUA`: the report task completes from any status. -/
def completeFinalRepairReport
    (s : Broker)
    (args : CompleteReportArgs)
    (now : Time) : Broker × Int :=
  let original := s.tasks args.repairTask
  if !(s.tasks args.reportTask).exists_ || !original.exists_ then (s, -1)
  else if reportSettled original then
    if original.finalRepairReportState.map (·.inputDigest) = some args.state.inputDigest then
      (s, 0)
    else (s, -3)
  else
    let s := s.updTask args.reportTask fun t =>
      { t with
        status := some .completed
        result := some args.result
        error := some ""
        finalRepairReportState := some args.state
        updatedAt := some now }
    let s := s.updTask args.repairTask fun t =>
      { t with finalRepairReportState := some args.state, updatedAt := some now }
    let s :=
      match args.input with
      | some input =>
        { s with reportInputs := Function.update s.reportInputs args.repairTask (some input) }
      | none => s
    let s := s.setActiveReport args.reportTask none
    (s.dropOwnerTask (s.tasks args.reportTask).workerId args.reportTask, 1)

end Broker

end MrAgent
