import MrAgent.RollbackAdmission
import MrAgent.CardRevision
import MrAgent.FallibleProgram

namespace MrAgent

open TransitionSystem FallibleProgram

/-!
# Terminal records of repairs

`pr_agent/triage/terminal.py` writes one `triage_runs` row per repair task and
rewrites it when the pipeline that a repair gave up on succeeds later. The row
is computed from the stored repair state; the card is set from the event.
Columns that only copy a stored value nobody compares (coverage, explanations,
durations, failed job names of the card) are left out.
-/

/-- Python's `first or second` on texts. -/
def textOr (first second : String) : String :=
  if first = "" then second else first

/-- Python's `first or second` on numbers. -/
def numberOr (first second : Nat) : Nat :=
  if first = 0 then second else first

/-- Python's `value or None` on a number. -/
def orNone (value : Nat) : Option Nat :=
  if value = 0 then none else some value

/-! ## The pipeline that a repair produced -/

/-- `RepairResultIdentity`. -/
structure RepairResultIdentity where
  pipelineId : Nat := 0
  commitSha : String := ""
  pipelineStatus : String := ""
deriving DecidableEq

/-- `RepairResultIdentity.exists`. -/
def RepairResultIdentity.exists_ (identity : RepairResultIdentity) : Bool :=
  identity.pipelineId ≠ 0 && identity.commitSha ≠ ""

/-- `manifest_sha`: the commit of the last entry. -/
def manifestSha (manifest : Option RepairCommitManifest) : String :=
  match manifest.bind fun m => m.entries.getLast? with
  | some entry => entry.commitSha
  | none => ""

/-- `candidates[-1]`: the last action on the manifest's commit, or on any without one. -/
def lastCommitAction
    (manifest : Option RepairCommitManifest)
    (actions : List RepairAction) : Option RepairAction :=
  (actions.filter fun action =>
    action.commitSha ≠ "" &&
      (manifestSha manifest = "" || action.commitSha = manifestSha manifest)).getLast?

/-- `resolve_repair_result_identity`. -/
def resolveRepairResultIdentity
    (manifest : Option RepairCommitManifest)
    (actions : List RepairAction)
    (currentPipelineId : Nat)
    (currentPipelineSha currentPipelineStatus : String) : RepairResultIdentity :=
  let action := (lastCommitAction manifest actions).getD {}
  let commitSha := textOr (manifestSha manifest) action.commitSha
  if commitSha = "" then {}
  else if action.validationPipelineId ≠ 0 then
    ⟨action.validationPipelineId, commitSha, action.validationStatus⟩
  else if currentPipelineId ≠ 0 && currentPipelineSha = commitSha then
    ⟨currentPipelineId, commitSha, currentPipelineStatus⟩
  else {}

/-! ## Reading the broker -/

/-- `StoredTask`, the fields the terminal record reads. -/
structure StoredTask where
  envelope : TaskEnvelope
  status : TaskStatus
  error : String
  pipelineRepairState : PipelineRepairState
  repairCommitManifest : Option RepairCommitManifest
deriving DecidableEq

/-- `StoredTask.task_id`. -/
def StoredTask.taskId (stored : StoredTask) : TaskId :=
  stored.envelope.taskId

/-- The body of `get_task` on a hash; one without payload or status raises. -/
def TaskHash.read (task : TaskHash) : Except String (Option StoredTask) :=
  if !task.exists_ then .ok none
  else
    match task.payload, task.status with
    | some envelope, some status =>
      .ok (some
        { envelope := envelope
          status := status
          error := task.error.getD ""
          pipelineRepairState := task.pipelineRepairState.getD {}
          repairCommitManifest := task.repairCommitManifest })
    | none, _ => .error "payload"
    | some _, none => .error "status"

/-- `get_task`. -/
def Broker.getTask (s : Broker) (task : TaskId) : Except String (Option StoredTask) :=
  (s.tasks task).read

/-- `binding.current_pipeline_id`. -/
def CardHash.bindingPipelineId (card : CardHash) : Nat :=
  card.effectivePipelineId.getD 0

/-- `binding.current_pipeline_sha`. -/
def CardHash.bindingPipelineSha (card : CardHash) : String :=
  textOr (card.currentPipelineSha.getD "") (card.pipelineSha.getD "")

/-! ## The row -/

/-- `_repair_command`; the empty text is any other command. -/
def repairCommandWord (command : String) : String :=
  let word := ((strip command.toList).takeWhile fun c => !isSpace c).map Char.toLower
  if String.ofList word ∈ ["/repair-pipeline", "/triage", "/fix-format", "/fix_format"] then
    String.ofList word
  else ""

/-- `_is_outer_repair`. -/
def isOuterRepair (command : String) : Bool :=
  repairCommandWord command = "/repair-pipeline"

/-- `_terminal_status`. -/
def terminalStatus (stored : StoredTask) (card : Option CardHash) : String :=
  if stored.pipelineRepairState.finalPipelineStatus ≠ "" then
    stored.pipelineRepairState.finalPipelineStatus
  else if stored.status = .canceled then "canceled"
  else if card.bind (·.state) = some .repairSucceeded then "success"
  else if stored.status = .failed then "error"
  else "failed"

/-- `is_model_service_unavailable`; `lower` is `str.lower`. -/
def isModelServiceUnavailable
    (lower : List Char → List Char)
    (failureKind error : String) : Bool :=
  let kind := lower (strip failureKind.toList)
  if kind ≠ [] then kind = "provider_unavailable".toList
  else "模型服务暂时不可用".toList <+: strip error.toList

/-- A pipeline as a report names it. -/
structure PipelineResult where
  id : Nat
  sha : String
  status : String
deriving DecidableEq

/-- `_repair_report`, without the parts that repeat stored texts. -/
structure RepairReport where
  status : TaskStatus
  phase : PipelineRepairPhase
  finalPipeline : Option PipelineResult
  evidencePipeline : Option PipelineResult
  repairOutcome : String
  selectedCategories : List String
  failedJobNames : List String
  error : String
  actions : List RepairAction
deriving DecidableEq

/-- The values of `finish_reason`. -/
inductive FinishReason where
  | externalDependencyBlocked
  | modelServiceUnavailable
  | completed
  | pipelineFailed
  | canceled
  | infrastructureError
deriving DecidableEq

/-- A row of `triage_runs`; the `extra` document is part of it. -/
structure TriageRun where
  createdAt : Time
  prUrl : String
  project : String
  mrIid : Option Nat
  commitSha : String
  pipelineId : Option Nat
  success : Nat
  repairOutcome : String
  finishReason : FinishReason
  pushedSha : String
  finalPipelineStatus : String
  error : Option String
  finalPipelineId : Option Nat
  finalPipelineSha : String
  evidencePipelineId : Option Nat
  evidencePipelineSha : String
  evidencePipelineStatus : String
  finalFailedJobNames : List String
  selectedCategories : List String
  terminalFailureKind : String
  repairReport : RepairReport
deriving DecidableEq

/-- `_repair_report`. -/
def buildRepairReport
    (stored : StoredTask)
    (status : String) : RepairReport :=
  let state := stored.pipelineRepairState
  let identity := resolveRepairResultIdentity stored.repairCommitManifest state.repairActions
    state.latestPipelineId state.latestPipelineSha status
  { status := stored.status
    phase := state.phase
    finalPipeline :=
      if identity.exists_ then
        some ⟨identity.pipelineId, identity.commitSha, textOr identity.pipelineStatus status⟩
      else none
    evidencePipeline :=
      if identity.exists_ then none
      else some ⟨state.latestPipelineId, state.latestPipelineSha, status⟩
    repairOutcome := state.repairOutcome
    selectedCategories := state.selectedCategories
    failedJobNames := state.failedJobNames
    error := textOr stored.error state.terminalError
    actions := state.repairActions }

/-- The `finish_reason` chain of `persist_repair_terminal`. -/
def finishReason
    (repairOutcome : String)
    (modelUnavailable : Bool)
    (status : TaskStatus) : FinishReason :=
  let success := repairOutcome = "success"
  let reason : FinishReason :=
    if repairOutcome = "blocked" then .externalDependencyBlocked
    else if modelUnavailable then .modelServiceUnavailable
    else if success then .completed
    else .pipelineFailed
  if repairOutcome ≠ "blocked" ∧ ¬success ∧ status = .canceled then .canceled
  else if repairOutcome ≠ "blocked" ∧ ¬success ∧ !modelUnavailable ∧ status = .failed then
    .infrastructureError
  else reason

/-- The outcome that the row records. -/
def recordedOutcome (stored : StoredTask) (card : Option CardHash) : String :=
  textOr stored.pipelineRepairState.repairOutcome
    (if card.bind (·.state) = some .repairSucceeded then "success" else "failed")

/-- The `record` of `persist_repair_terminal`. -/
def triageRecord
    (lower : List Char → List Char)
    (stored : StoredTask)
    (card : Option CardHash)
    (error : String) : TriageRun :=
  let state := stored.pipelineRepairState
  let payload := stored.envelope.payload
  let outcome := recordedOutcome stored card
  let terminalError := textOr error (textOr stored.error state.terminalError)
  let modelUnavailable := isModelServiceUnavailable lower state.terminalFailureKind terminalError
  let pipelineId := numberOr state.latestPipelineId ((card.map (·.bindingPipelineId)).getD 0)
  let pipelineSha := textOr state.latestPipelineSha ((card.map (·.bindingPipelineSha)).getD "")
  let status := terminalStatus stored card
  let identity := resolveRepairResultIdentity stored.repairCommitManifest state.repairActions
    pipelineId pipelineSha status
  { createdAt := stored.envelope.createdAt
    prUrl := stored.envelope.prUrl
    project := (stored.envelope.mr.map (·.projectId)).getD ""
    mrIid := stored.envelope.mr.map (·.iid)
    commitSha :=
      textOr payload.sourcePipelineSha ((card.bind (·.pipelineSha)).getD "")
    pipelineId :=
      orNone (numberOr (payload.sourcePipelineId.getD 0) ((card.bind (·.pipelineId)).getD 0))
    success := if outcome = "success" then 1 else 0
    repairOutcome := outcome
    finishReason := finishReason outcome modelUnavailable stored.status
    pushedSha := identity.commitSha
    finalPipelineStatus :=
      if identity.exists_ then textOr identity.pipelineStatus status else "unknown"
    error := if terminalError = "" then none else some terminalError
    finalPipelineId := orNone identity.pipelineId
    finalPipelineSha := identity.commitSha
    evidencePipelineId := orNone pipelineId
    evidencePipelineSha := pipelineSha
    evidencePipelineStatus := status
    finalFailedJobNames := state.failedJobNames
    selectedCategories := state.selectedCategories
    terminalFailureKind := state.terminalFailureKind
    repairReport := buildRepairReport stored status }

/-! ## Persisting and correcting -/

/-- What the two functions reach outside the broker's hashes. -/
structure TerminalEnv where
  /-- `str.lower`. -/
  lower : List Char → List Char
  /-- Whether SQLite accepts the write for a task. -/
  saves : TaskId → Bool
  /-- `build_card_update_notification`. -/
  cardNotification : CardHash → TaskId → NotificationEnvelope
  /-- `time.time()`. -/
  now : Time

/--
The broker, the `repair_sha_tasks` sets and the `triage_runs` table. A task is
indexed only under a nonempty SHA.
-/
structure TerminalWorld where
  broker : Broker
  repairShaTasks : String → String → List TaskId
  unindexed : ∀ projectId, repairShaTasks projectId "" = []
  rows : TaskId → Option TriageRun

namespace TerminalWorld

/-- `save_triage_run`, an upsert by task. -/
def saveTriageRun (w : TerminalWorld) (task : TaskId) (row : TriageRun) : TerminalWorld :=
  { w with rows := Function.update w.rows task (some row) }

/-- `update_triage_run_repair_report` on an existing row. -/
def updateRepairReport (w : TerminalWorld) (task : TaskId) (report : RepairReport) :
    TerminalWorld :=
  { w with
    rows := Function.update w.rows task
      ((w.rows task).map fun row => { row with repairReport := report }) }

/-- `persist_repair_terminal`; an exception is the answer `false`. -/
def persistRepairTerminal
    (w : TerminalWorld)
    (env : TerminalEnv)
    (task : TaskId)
    (error : String) : TerminalWorld × Bool :=
  match w.broker.getTask task with
  | .error _ => (w, false)
  | .ok none => (w, false)
  | .ok (some stored) =>
    let command := repairCommandWord stored.envelope.command
    let card := (w.broker.getTaskTriageCard task).map (·.card)
    if command = "" || !stored.status.terminal || !env.saves task then (w, false)
    else if command = "/triage" && (w.rows task).isSome then
      (w.updateRepairReport task (buildRepairReport stored (terminalStatus stored card)), true)
    else (w.saveTriageRun task (triageRecord env.lower stored card error), true)

/-- `list_terminal_repair_candidates`. -/
def listTerminalRepairCandidates
    (w : TerminalWorld)
    (projectId sha : String) : Except String (List StoredTask) := do
  let stored ← (w.repairShaTasks projectId sha).mapM w.broker.getTask
  pure ((stored.filterMap id).filter fun task =>
    task.status.terminal && task.pipelineRepairState.latestPipelineSha = sha)

end TerminalWorld

/-- The guard on a candidate that reads only its stored task. -/
def lateCandidate (stored : StoredTask) (event : PipelineEvent) : Bool :=
  let state := stored.pipelineRepairState
  (stored.status = .failed || stored.status = .completed) &&
    isOuterRepair stored.envelope.command &&
    state.latestPipelineId = event.pipelineId &&
    state.latestPipelineSha = event.sha &&
    state.finalPipelineStatus ≠ "success" &&
    (stored.status ≠ .completed || state.finalPipelineStatus = "failed")

/-- The states of a card that a late success may correct. -/
def lateCardStates : List TriageCardState :=
  [.pipelineFailed, .repairFailed]

/-- The guard on the card that is bound to the candidate. -/
def lateBinding (stored : StoredTask) (card : CardHash) : Bool :=
  Broker.stateExpected card lateCardStates &&
    match stored.envelope.mr with
    | some mr => card.projectId = some mr.projectId && card.mrIid = some mr.iid
    | none => false

/-- `terminal`: what the correction rewrites of the repair state. -/
def correctedState (state : PipelineRepairState) (event : PipelineEvent) : PipelineRepairState :=
  { state with
    phase := .terminal
    latestPipelineId := event.pipelineId
    latestPipelineSha := event.sha
    finalPipelineStatus := "success"
    failedJobNames := []
    terminalError := "" }

/-- `status_markdown`. -/
def lateStatusMarkdown (event : PipelineEvent) : String :=
  "已收到此前异常终止任务对应的最终流水线结果，修复结果已更正为成功。" ++
    "\n\n- Pipeline: `#" ++ toString event.pipelineId ++ "`\n- Commit: `" ++
    String.ofList (event.sha.toList.take 12) ++ "`"

/-- `items`: what the correction shows for every repair item. -/
def correctedItems
    (task : TaskId)
    (event : PipelineEvent)
    (items : List RepairItem) : List RepairItem :=
  items.map fun item =>
    let own := item.taskId = some task || item.category = .pipeline
    { item with
      status := if own then .succeeded else .resolved
      resultPipelineId := event.pipelineId
      resultPipelineSha := event.sha
      statusMarkdown := if own then "流水线已通过" else "已随最终流水线通过" }

/-- What one call of `correct_late_repair_terminal` is given. -/
def lateCorrection (stored : StoredTask) (event : PipelineEvent) (card : CardHash) :
    Broker.LateCorrectionArgs where
  expectedStatus := stored.status
  repairState := correctedState stored.pipelineRepairState event
  expectedStates := lateCardStates
  expectedRevision := card.revision.getD 0
  items := correctedItems stored.taskId event (card.repairItems.getD [])
  statusMarkdown := lateStatusMarkdown event
  currentPipelineId := event.pipelineId
  currentPipelineSha := event.sha

/-- `predicted`: the card that the notification shows. -/
def predictedCard (stored : StoredTask) (event : PipelineEvent) (card : CardHash) : CardHash :=
  { card with
    repairItems := some (correctedItems stored.taskId event (card.repairItems.getD []))
    state := some .repairSucceeded
    statusMarkdown := some (lateStatusMarkdown event)
    currentPipelineId := some event.pipelineId
    currentPipelineSha := some event.sha
    activeTaskId := none
    activeCategory := some ""
    revision := some (card.revision.getD 0 + 1) }

namespace TerminalWorld

/-- The body of the loop of `reconcile_late_repair_success`. -/
def reconcileTask
    (env : TerminalEnv)
    (event : PipelineEvent)
    (progress : TerminalWorld × List TaskId)
    (stored : StoredTask) : TerminalWorld × List TaskId :=
  let w := progress.1
  if !lateCandidate stored event then progress
  else
    match w.broker.getTaskTriageCard stored.taskId with
    | none => progress
    | some read =>
      if !lateBinding stored read.card then progress
      else
        let changed :=
          w.broker.correctLateRepairTerminal stored.taskId read.cardId
            (lateCorrection stored event read.card)
            (env.cardNotification (predictedCard stored event read.card) stored.taskId) env.now
        if changed.2 ≠ 1 then progress
        else
          let w : TerminalWorld := { w with broker := changed.1 }
          ((w.persistRepairTerminal env stored.taskId "").1, progress.2 ++ [stored.taskId])

/-- `reconcile_late_repair_success`: the world after it and the corrected tasks. -/
def reconcileLateRepairSuccess
    (w : TerminalWorld)
    (env : TerminalEnv)
    (event : PipelineEvent) : TerminalWorld × List TaskId :=
  if event.status ≠ "success" then (w, [])
  else
    match w.listTerminalRepairCandidates event.projectId event.sha with
    | .error _ => (w, [])
    | .ok candidates => candidates.foldl (reconcileTask env event) (w, [])

end TerminalWorld

end MrAgent
