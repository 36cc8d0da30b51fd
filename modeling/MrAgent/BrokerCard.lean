import MrAgent.BrokerTask

namespace MrAgent

/-!
# Triage card scripts

The scripts that keep a Feishu card in step with its repair. They write card
hashes and notifications; the late-success correction is the only one that
also writes a task hash, and it leaves the task's status alone. A wrapper
first resolves the card bound to the task and does nothing without one.
-/

namespace Broker

/-- `SAVE_TRIAGE_CARD_LUA`: a card is stored once, and only for a newer pipeline. -/
def saveTriageCard
    (s : Broker)
    (mr : MrKey)
    (cardId : CardId)
    (pipelineId : Nat)
    (card : CardHash) : Broker × Int :=
  let scope := some mr
  let current :=
    s.latestPipeline scope <|>
      (s.latestCard scope).bind fun latest => (s.cards latest).effectivePipelineId
  if (s.cards cardId).exists_ then (s, 0)
  else if pipelineId ≤ current.getD 0 then (s, -1)
  else
    let s := s.updCard cardId fun _ => card
    ({ s with
        latestCard := Function.update s.latestCard scope (some cardId)
        latestPipeline := Function.update s.latestPipeline scope (some pipelineId) }, 1)

/-- `RECORD_CARD_MESSAGE_LUA`. -/
def recordCardMessage
    (s : Broker)
    (cardId : CardId)
    (messageId receiveId : String)
    (now : Time) : Broker × Int :=
  let card := s.cards cardId
  if !card.exists_ then (s, -1)
  else if card.openMessageId.getD "" ≠ "" && card.openMessageId ≠ some messageId then (s, -2)
  else
    (s.updCard cardId fun c =>
        { c with
          openMessageId := some messageId
          receiveId := some receiveId
          updatedAt := some now },
      1)

/-- The stored state is one of the expected ones. -/
def stateExpected (card : CardHash) (expected : List TriageCardState) : Bool :=
  match card.state with
  | some state => state ∈ expected
  | none => false

/-- `TRANSITION_TRIAGE_CARD_LUA`. -/
def transitionTriageCard
    (s : Broker)
    (cardId : CardId)
    (expected : List TriageCardState)
    (target : TriageCardState)
    (statusMarkdown : String)
    (now : Time) : Broker × Int :=
  if !stateExpected (s.cards cardId) expected then (s, 0)
  else
    (s.updCard cardId fun c =>
        { c with
          state := some target
          statusMarkdown := some statusMarkdown
          updatedAt := some now },
      1)

/-- The item status that a card state stands for. -/
def itemStatusOf : TriageCardState → Option RepairItemStatus
  | .repairQueued => some .queued
  | .repairRunning => some .running
  | .waitingPipeline => some .waitingPipeline
  | _ => none

/-- Move the task's own items to the status of the card's new state. -/
def progressItems
    (task : TaskId)
    (status : Option RepairItemStatus)
    (statusMarkdown : String)
    (items : List RepairItem) : List RepairItem :=
  match status with
  | none => items
  | some status =>
    items.map fun item =>
      if item.taskId = some task then
        { item with status := status, statusMarkdown := statusMarkdown }
      else item

/-- `TRANSITION_TRIAGE_CARD_NOTIFICATION_LUA`. -/
def transitionTriageCardWithNotification
    (s : Broker)
    (task : TaskId)
    (cardId : CardId)
    (expected : List TriageCardState)
    (target : TriageCardState)
    (statusMarkdown : String)
    (notification : NotificationEnvelope)
    (now : Time) : Broker × Int :=
  if !stateExpected (s.cards cardId) expected then (s, 0)
  else if notification.notificationId ∈ s.notificationDedup then (s, 0)
  else
    let s := s.updCard cardId fun c =>
      { c with
        state := some target
        statusMarkdown := some statusMarkdown
        repairItems := some
          (progressItems task (itemStatusOf target) statusMarkdown (c.repairItems.getD []))
        updatedAt := some now }
    (s.notify notification, 1)

/-- What a repair reports while it runs. -/
structure ProgressArgs where
  expected : List TriageCardState
  target : TriageCardState
  statusMarkdown : String
  currentPipelineId : Nat
  currentPipelineSha : String
  items : List RepairItem
deriving DecidableEq

/-- `UPDATE_REPAIR_PROGRESS_NOTIFICATION_LUA`. -/
def updateRepairProgressWithNotification
    (s : Broker)
    (task : TaskId)
    (cardId : CardId)
    (args : ProgressArgs)
    (notification : NotificationEnvelope)
    (now : Time) : Broker × Int :=
  let status :=
    if args.target = .repairQueued then none else itemStatusOf args.target
  if (s.cards cardId).activeTaskId ≠ some task ||
      !stateExpected (s.cards cardId) args.expected then (s, 0)
  else if notification.notificationId ∈ s.notificationDedup then (s, 0)
  else
    let s := s.updCard cardId fun c =>
      { c with
        state := some args.target
        statusMarkdown := some args.statusMarkdown
        repairItems := some
          (if args.items = [] then
            progressItems task status args.statusMarkdown (c.repairItems.getD [])
           else args.items)
        currentPipelineId := some args.currentPipelineId
        currentPipelineSha := some args.currentPipelineSha
        updatedAt := some now }
    (s.notify notification, 1)

/-- The final state of a card when its repair ends. -/
structure TerminalCardArgs where
  items : List RepairItem
  state : TriageCardState
  statusMarkdown : String
  currentPipelineId : Nat
  currentPipelineSha : String
  revision : Nat
  postRepairUt : Option PostRepairUTState := none
deriving DecidableEq

/-- The card fields that both terminal scripts write. -/
def terminalCard (args : TerminalCardArgs) (now : Time) (c : CardHash) : CardHash :=
  { c with
    repairItems := some args.items
    state := some args.state
    statusMarkdown := some args.statusMarkdown
    currentPipelineId := some args.currentPipelineId
    currentPipelineSha := some args.currentPipelineSha
    activeTaskId := none
    activeCategory := some ""
    revision := some args.revision
    postRepairUt := args.postRepairUt <|> c.postRepairUt
    updatedAt := some now }

/-- `RECONCILE_REPAIR_CARD_NOTIFICATION_LUA`. -/
def reconcileRepairCardWithNotification
    (s : Broker)
    (task : TaskId)
    (cardId : CardId)
    (expectedRevision : Nat)
    (args : TerminalCardArgs)
    (notification : NotificationEnvelope)
    (now : Time) : Broker × Int :=
  let card := s.cards cardId
  if !card.exists_ then (s, -1)
  else if card.activeTaskId ≠ some task || card.revision.getD 0 ≠ expectedRevision then (s, 0)
  else if notification.notificationId ∈ s.notificationDedup then (s, 0)
  else ((s.updCard cardId (terminalCard args now)).notify notification, 1)

/-- What a pipeline success after the end of a repair corrects. -/
structure LateCorrectionArgs where
  expectedStatus : TaskStatus
  repairState : PipelineRepairState
  expectedStates : List TriageCardState
  expectedRevision : Nat
  items : List RepairItem
  statusMarkdown : String
  currentPipelineId : Nat
  currentPipelineSha : String
deriving DecidableEq

/-- `CORRECT_LATE_REPAIR_TERMINAL_LUA`. -/
def correctLateRepairTerminal
    (s : Broker)
    (task : TaskId)
    (cardId : CardId)
    (args : LateCorrectionArgs)
    (notification : NotificationEnvelope)
    (now : Time) : Broker × Int :=
  let stored := s.tasks task
  let card := s.cards cardId
  if !stored.exists_ || !card.exists_ then (s, -1)
  else if stored.status ≠ some args.expectedStatus ||
      !stateExpected card args.expectedStates ||
      card.revision.getD 0 ≠ args.expectedRevision then (s, 0)
  else
    let s := s.updTask task fun t =>
      { t with
        pipelineRepairState := some args.repairState
        error := some ""
        updatedAt := some now }
    let s := s.updCard cardId
      (terminalCard
        { items := args.items
          state := .repairSucceeded
          statusMarkdown := args.statusMarkdown
          currentPipelineId := args.currentPipelineId
          currentPipelineSha := args.currentPipelineSha
          revision := args.expectedRevision + 1 } now)
    (s.notify notification, 1)

/-- `UPDATE_POST_REPAIR_UT_NOTIFICATION_LUA`. -/
def updatePostRepairUtWithNotification
    (s : Broker)
    (task : TaskId)
    (cardId : CardId)
    (state : PostRepairUTState)
    (terminal : Bool)
    (notification : NotificationEnvelope)
    (now : Time) : Broker × Int :=
  let card := s.cards cardId
  if !card.exists_ then (s, -1)
  else if (card.postRepairUt.getD {}).taskId ≠ some task || state.taskId ≠ some task then (s, -2)
  else if card.activeTaskId ≠ some task && !terminal then (s, -3)
  else
    let s := s.updCard cardId fun c =>
      { c with
        postRepairUt := some state
        revision := some (c.revision.getD 0 + 1)
        updatedAt := some now }
    let s :=
      if terminal && card.activeTaskId = some task then
        s.updCard cardId fun c => { c with activeTaskId := none, activeCategory := some "" }
      else s
    (s.notify notification, 1)

/-- The card write of `publish_repair_rollback_eligibility`. -/
def publishRollbackEligibility
    (s : Broker)
    (task : TaskId)
    (cardId : CardId)
    (commitCount revision : Nat)
    (now : Time) : Broker :=
  s.updCard cardId fun c =>
    { c with
      rollbackRepairTaskId := some task
      rollbackCommitCount := some commitCount
      rollbackTaskId := none
      rollbackStatus := none
      rollbackCommitSha := some ""
      rollbackTrigger := none
      revision := some revision
      updatedAt := some now }

/-- `ENQUEUE_NOTIFICATION_LUA`. -/
def enqueueNotification (s : Broker) (notification : NotificationEnvelope) : Broker × Int :=
  if notification.notificationId ∈ s.notificationDedup then (s, 0)
  else (s.notify notification, 1)

/-- `ENQUEUE_CARD_FALLBACK_LUA`. -/
def enqueueCardFallback
    (s : Broker)
    (cardId : CardId)
    (notification : NotificationEnvelope)
    (now : Time) : Broker × Int :=
  let markSent := fun s : Broker => s.updCard cardId fun c =>
    { c with fallbackSent := some true, updatedAt := some now }
  if !(s.cards cardId).exists_ then (s, -1)
  else if (s.cards cardId).fallbackSent = some true then (s, 0)
  else if notification.notificationId ∈ s.notificationDedup then (markSent s, 0)
  else (markSent (s.notify notification), 1)

end Broker

end MrAgent
