import MrAgent.ExecutionPolicy

namespace MrAgent

/-!
# Mandatory actions

`pipeline_actions.py`: in a repair run the next tool call is often not the
model's choice. `nextMandatoryPipelineAction` computes it from the same history
that `validateToolCall` reads, and `agentNode` issues it.
-/

/-- `MandatoryToolCall`. -/
structure MandatoryToolCall where
  name : ToolName
  arguments : ToolArgs := {}
  reason : String
deriving DecidableEq

/-! ## Summaries -/

/-- The boundaries of `str.splitlines`. -/
def isLineBreak (c : Char) : Bool :=
  c ∈ ['\n', '\r', Char.ofNat 11, Char.ofNat 12, Char.ofNat 28, Char.ofNat 29, Char.ofNat 30,
    Char.ofNat 133, Char.ofNat 8232, Char.ofNat 8233]

/-- The first line of a text that is not blank, without the space around it. -/
def firstLine (text default : String) : String :=
  match ((text.toList.splitOnP isLineBreak).map strip).find? (· ≠ []) with
  | some line => String.ofList line
  | none => default

/-- The line of `build_failed_summary` for one work item. -/
def summaryLine
    (ledger : ExecutionLedger)
    (pipeline : ToolResult)
    (first : Nat)
    (item : PipelineWorkItem) : String :=
  let jobName := orElse item.jobName "unknown"
  let failedJob : FailedJob :=
    (pipeline.failedJobs.find? fun job =>
      item.jobId.isSome && job.jobId = item.jobId || job.name = jobName).getD {}
  let attempt := ledger.toolAttempts.reverse.find? fun attempt =>
    attempt.sequence > first && attempt.name ≠ .fetchPipelineLogs &&
      attempt.name ≠ .waitPipeline &&
      (attempt.args.jobName = some jobName || attempt.args.jobId = item.jobId ||
        item.rootCauseId ≠ "" && attempt.rootCauseId = item.rootCauseId)
  let result := (attempt.map ToolAttempt.facts).getD {}
  let causalLines :=
    (failedJob.causalLines.map fun line => String.ofList (strip line.toList)).filter (· ≠ "")
  let missing := "未提供 CI 因果错误"
  let ciEvidence := firstLine (orElse (causalLines.headD failedJob.logTail) missing) missing
  let action :=
    firstLine (orElse result.diagnostic (orElse result.reason result.message)) ""
  let note := if result.status = .absent then "" else s!"；自动处理结果: {result.status.text}"
  let evidence := if action = "" then ciEvidence else s!"{ciEvidence}；处理说明: {action}"
  let shown := String.ofList (evidence.toList.take 300)
  let status := orElse failedJob.status "failed"
  s!"- {jobName}: {status}{note} — {shown}"

/-- `build_failed_summary`. -/
def buildFailedSummary (s : AgentState) (stopReason : String) : String :=
  let ledger := buildExecutionLedger s.messages
  let cause :=
    if mentions stopReason "相同失败" then
      ["原因：同一失败在两个不同的修复流水线中重复出现。"]
    else if mentions stopReason "3 个修复 commit" then
      ["原因：本次运行已推送 3 个修复提交。"]
    else []
  let details :=
    match ledger.pipelines.reverse.find? fun pipeline =>
        pipeline.result.pipelineStatus = .failed && pipeline.result.workItems.getD [] ≠ [] with
    | none => []
    | some pipeline =>
      let first := firstObservation ledger (fun other => other.workItems.getD [] ≠ []) pipeline.result
      s!"最后核验流水线：#{numberText pipeline.result.pipelineId}" ::
        (pipeline.result.workItems.getD []).map (summaryLine ledger pipeline.result first)
  "\n".intercalate ("自动修复已达到安全上限，已停止继续提交。" :: (cause ++ details))

/-- A call that ends the run. -/
def finishCall (success : Bool) (summary reason : String) : MandatoryToolCall where
  name := .finish
  arguments := { success := success, summary := summary }
  reason := reason

/-- The first thousand characters of a summary. -/
def boundedSummary (summary : String) : String :=
  String.ofList (summary.toList.take 1000)

/-! ## Work for the code generator -/

/-- `_matching_attempt`. -/
def matchingAttempt
    (attempts : List ToolAttempt)
    (name : ToolName)
    (rootCauseId jobName : String)
    (afterSequence : Nat) : Option ToolAttempt :=
  attempts.reverse.find? fun attempt =>
    attempt.sequence > afterSequence && attempt.name = name &&
      (attempt.rootCauseId = rootCauseId || rootCauseId = "" && attempt.jobName = jobName)

/-- `_validated_dependency_blocker`. -/
def validatedDependencyBlocker
    (pipeline : SequencedResult)
    (ledger : ExecutionLedger)
    (rootCauseId jobName : String) : Option BlockerRecord :=
  let result :=
    ((matchingAttempt ledger.toolAttempts .resolveDependencyEvidence rootCauseId jobName
      pipeline.sequence).map ToolAttempt.facts).getD {}
  if result.status ≠ .blocked || (validateBlockerRecord result.blocker jobName).isSome then none
  else result.blocker.filter (·.blockerType = "external_dependency")

/-- The identity under which an item is visited once. -/
def itemIdentity (item : PipelineWorkItem) : String :=
  orElse item.rootCauseId ("job:" ++ numberText item.jobId)

/-- An attempt to verify a blocker has ended with a blocked result. -/
def verifiedBlocked (attempt : ToolAttempt) : Bool :=
  attempt.operation = .verifyBlocker && attempt.facts.status = .blocked

/-- The loop of `_current_generate_item`. -/
def currentGenerateFrom
    (pipeline : SequencedResult)
    (ledger : ExecutionLedger)
    (terminalRootIds : List String)
    (seen : List String) : List PipelineWorkItem → Option PipelineWorkItem
  | [] => none
  | item :: rest =>
    if item.requiredTool ≠ "generate_code_tool" || itemIdentity item ∈ seen then
      currentGenerateFrom pipeline ledger terminalRootIds seen rest
    else
      let jobName := item.canonicalJob
      if item.rootCauseId ∈ terminalRootIds ||
          (validatedDependencyBlocker pipeline ledger item.rootCauseId jobName).isSome ||
          (matchingAttempt ledger.toolAttempts .generateCode item.rootCauseId jobName
            pipeline.sequence).any verifiedBlocked then
        currentGenerateFrom pipeline ledger terminalRootIds (itemIdentity item :: seen) rest
      else some { item with jobName := jobName }

/-- `_current_generate_item`. -/
def currentGenerateItem
    (pipeline : SequencedResult)
    (ledger : ExecutionLedger)
    (terminalRootIds : List String) : Option PipelineWorkItem :=
  currentGenerateFrom pipeline ledger terminalRootIds [] (pipeline.result.workItems.getD [])

/-- The loop of `_all_dependency_blockers`; `none` when one item has no blocker. -/
def dependencyBlockersFrom
    (pipeline : SequencedResult)
    (ledger : ExecutionLedger)
    (seen : List String) : List PipelineWorkItem → Option (List BlockerRecord)
  | [] => some []
  | item :: rest =>
    if item.requiredTool ≠ "generate_code_tool" || itemIdentity item ∈ seen then
      dependencyBlockersFrom pipeline ledger seen rest
    else
      match validatedDependencyBlocker pipeline ledger item.rootCauseId item.canonicalJob with
      | none => none
      | some blocker =>
        (dependencyBlockersFrom pipeline ledger (itemIdentity item :: seen) rest).map
          (blocker :: ·)

/-- `_all_dependency_blockers`. -/
def allDependencyBlockers (pipeline : SequencedResult) (ledger : ExecutionLedger) :
    List BlockerRecord :=
  (dependencyBlockersFrom pipeline ledger [] (pipeline.result.workItems.getD [])).getD []

/-- `_generate_arguments`; the description does not enter any check. -/
def generateArguments (item : PipelineWorkItem) (operation : Operation) : ToolArgs where
  jobName := some item.jobName
  rootCauseId := item.rootCauseId
  operation := operation

/-- A text with a suggested action behind it. -/
def withSuggestion (rootCause suggestedAction : String) : String :=
  if suggestedAction = "" then rootCause else s!"{rootCause} 建议：{suggestedAction}"

/-- `str(value or "").strip()`. -/
def stripped (value : String) : String :=
  String.ofList (strip value.toList)

/-- The roots whose state may end their repair. -/
def rootsInState (progress : List RootCauseProgress) (states : List RootCauseState) :
    List String :=
  (progress.filter (·.state ∈ states)).map (·.rootCauseId)

/-! ## The two backends -/

/-- `_next_native_pipeline_action`. -/
def nextNativePipelineAction
    (env : PolicyEnv)
    (s : AgentState)
    (ledger : ExecutionLedger)
    (pipeline : SequencedResult) : Option MandatoryToolCall :=
  if !s.workspaceReady then
    some { name := .cloneSourceBranch, reason := "必须先确认当前 MR 工作区已准备完成。" }
  else
    match latestRepairPlan s with
    | none => none
    | some plan =>
      let attempts := (planScopedAttempts s ledger).filter (·.sequence > pipeline.sequence)
      let evidence := buildNativeRepairEvidence attempts
      let blocked := blockedWorkItemIds s plan
      let current := activeWorkItem env.toPlanEnv s
      let currentId := (current.map (·.workItemId)).getD ""
      let exhausted :=
        ((plan.workItems.filter (·.status = .exhausted)).map (·.workItemId)).insertionSort (· ≤ ·)
      if blocked ≠ [] then
        if evidence.diffDigest ≠ "" then
          some
            { name := .discardWorkspace
              reason := "独立 Verifier 已阻止当前 RepairPlan，必须丢弃尚未提交的工作区修改。" }
        else
          let ids := ", ".intercalate (blocked.eraseDups.insertionSort (· ≤ ·))
          let reason := s!"RepairPlan 包含不可自动修复的 Work Item：{ids}。"
          some (finishCall false reason reason)
      else if current.isNone && evidence.lastPatchSequence < 0 && exhausted ≠ [] then
        let roots := "、".intercalate exhausted
        let reason := s!"根因组 {roots} 已达到有证据的重复修复上限，当前没有其他可执行 Work Item。"
        some (finishCall false reason reason)
      else if evidence.lastPatchSequence < 0 then none
      else if evidence.failedPatchAfterSuccess || evidence.lastPatchStatus ≠ .changed then none
      else
        let decision := evaluateNativeCommit attempts
        if decision.errorCode = "native_diff_review_incomplete" ||
            decision.errorCode = "native_diff_review_stale" then
          some
            { name := .inspectRepoDiff
              arguments :=
                { startLine := (orNumber decision.nextStartLine (some 1)).getD 1
                  workItemId := currentId }
              reason := "Native 补丁已经应用，必须完整检查当前 Diff 的所有页面。" }
        else if decision.errorCode = "native_validation_missing" ||
            decision.errorCode = "native_validation_checks_missing" ||
            decision.errorCode = "native_validation_stale" then
          some
            { name := .runRepoValidation
              arguments :=
                { checks := env.requiredChecksForPaths s evidence.changedFiles
                  workItemId := currentId }
              reason := "当前 Diff 已完整检查，必须运行该变更所需的全部本地验证。" }
        else if decision.allowed && (repairPlanCommitDecision env.toPlanEnv s decision).allowed then
          some
            { name := .commitAndPush
              reason := "RepairPlan 已全部完成，当前 Diff 通过独立验收和全部硬门禁，可以提交并推送。" }
        else none

/-- The end of a run in which no item is left for the code generator. -/
def noGenerateItemAction (env : PolicyEnv) (ledger : ExecutionLedger) (pipeline : SequencedResult) :
    MandatoryToolCall :=
  let progress := rootCauseProgress env ledger
  let exhausted := rootsInState progress [.repeatExhausted]
  let terminal := rootsInState progress [.blocked, .repeatExhausted]
  let blockers := allDependencyBlockers pipeline ledger
  let currentRoots :=
    ((pipeline.result.workItems.getD []).map (·.rootCauseId)).filter (· ≠ "")
  let currentExhausted :=
    ((currentRoots.filter (· ∈ exhausted)).eraseDups).insertionSort (· ≤ ·)
  if pipeline.result.failedJobs = [] then
    finishCall true "所选修复范围内的失败任务已经清除。"
      "验证流水线整体仍失败，但所选修复类别已不再包含失败 Job。"
  else if blockers ≠ [] then
    let parts := (blockers.map fun blocker =>
      withSuggestion (stripped blocker.rootCause) (stripped blocker.suggestedAction)).filter (· ≠ "")
    finishCall false (boundedSummary ("外部依赖阻塞：" ++ "；".intercalate parts.eraseDups))
      "所有可修复根因都已取得确定性的外部依赖阻塞证据。"
  else if currentExhausted ≠ [] && currentRoots.all (· ∈ terminal) then
    let roots := "、".intercalate currentExhausted
    finishCall false
      (boundedSummary s!"根因组 {roots}：该根因组连续修复后仍原样失败，已停止继续修改。")
      "所有尚未解决的根因组均已取得阻塞证据或达到重复修复上限。"
  else
    finishCall false "所选修复范围仍有失败 Job，但没有可执行的安全修复动作。"
      "流水线失败证据没有对应到允许的修复工具，必须明确结束而不是开放工具选择。"

/-- Membership in `_DEPENDENCY_TERMINAL_STATUSES`. -/
def ResultStatus.dependencyTerminal : ResultStatus → Bool
  | .resolved | .notApplicable | .notFound | .ambiguous | .limitExceeded | .error | .blocked => true
  | _ => false

/-- The dependency interfaces of an item have been fixed for this Pipeline. -/
def dependencyComplete
    (ledger : ExecutionLedger)
    (pipeline : SequencedResult)
    (item : PipelineWorkItem) : Bool :=
  let status :=
    (((matchingAttempt ledger.toolAttempts .resolveDependencyEvidence item.rootCauseId
      item.jobName pipeline.sequence).map ToolAttempt.facts).getD {}).status
  if status = .blocked then
    (validatedDependencyBlocker pipeline ledger item.rootCauseId item.jobName).isSome
  else status.dependencyTerminal

/-- The steps after a repair that has been attempted. -/
def afterRepairAction
    (ledger : ExecutionLedger)
    (item : PipelineWorkItem)
    (generates : List ToolAttempt)
    (repair : ToolAttempt) : Option MandatoryToolCall :=
  match repair.facts.status with
  | .changed | .partialChanges =>
    if ledger.toolAttempts.any fun attempt =>
        attempt.sequence > repair.sequence && attempt.name = .commitAndPush then none
    else some { name := .commitAndPush, reason := "工作区已有安全修复，必须提交并推送。" }
  | .unsafeChanges =>
    some
      { name := .discardWorkspace
        reason := "字段替换缺少当前接口证据，必须丢弃不安全修改。" }
  | .repairNoChanges =>
    match generates.reverse.find? fun attempt =>
        attempt.sequence > repair.sequence && attempt.operation = .verifyBlocker with
    | none =>
      some
        { name := .generateCode
          arguments := generateArguments item .verifyBlocker
          reason := "真实修复未产生改动，必须验证是否存在仓库外阻塞。" }
    | some verification =>
      if verification.facts.status = .blocked then
        some (finishCall false "已完成真实修复尝试，并确认当前仓库内不存在安全修复路径。"
          "当前根因已取得完整阻塞证据。")
      else none
  | _ => none

/-- The investigation and the repair of the current item. -/
def repairItemAction
    (ledger : ExecutionLedger)
    (pipeline : SequencedResult)
    (item : PipelineWorkItem) : Option MandatoryToolCall :=
  let generates := ledger.toolAttempts.filter fun attempt =>
    attempt.sequence > pipeline.sequence && attempt.name = .generateCode &&
      attempt.rootCauseId = item.rootCauseId
  match generates.reverse.find? (·.operation = .investigate) with
  | none =>
    some
      { name := .generateCode
        arguments := generateArguments item .investigate
        reason := "先进行一次有当前 CI 和接口证据约束的定向调查。" }
  | some investigation =>
    if !usableInvestigation investigation.facts then none
    else
      match generates.reverse.find? fun attempt =>
          attempt.sequence > investigation.sequence && attempt.operation = .repair with
      | none =>
        some
          { name := .generateCode
            arguments := generateArguments item .repair
            reason := "调查阶段不是终态，必须立即执行一次最小安全修复。" }
      | some repair => afterRepairAction ledger item generates repair

/-- The part of `next_mandatory_pipeline_action` for the code generator. -/
def nextGenerateAction
    (env : PolicyEnv)
    (s : AgentState)
    (ledger : ExecutionLedger)
    (pipeline : SequencedResult) : Option MandatoryToolCall :=
  let terminal := rootsInState (rootCauseProgress env ledger) [.blocked, .repeatExhausted]
  match currentGenerateItem pipeline ledger terminal with
  | none => some (noGenerateItemAction env ledger pipeline)
  | some item =>
    match item.preflightBlocker.filter (·.outcome = "blocked") with
    | some blocker =>
      let rootCause := stripped (orElse blocker.rootCause "流水线失败发生在仓库代码修复之前。")
      some (finishCall false
        (boundedSummary (withSuggestion rootCause (stripped blocker.suggestedAction)))
        "高置信度流水线前置检查已确认当前错误没有安全的代码修复动作。")
    | none =>
      if !s.workspaceReady then
        some { name := .cloneSourceBranch, reason := "必须先确认当前 MR 工作区已准备完成。" }
      else if !dependencyComplete ledger pipeline item then
        some
          { name := .resolveDependencyEvidence
            arguments := { jobName := some item.jobName, rootCauseId := item.rootCauseId }
            reason := "Hermes 运行前必须先固定当前声明依赖的接口快照。" }
      else repairItemAction ledger pipeline item

/-! ## The next action -/

/-- The ends and waits that a published repair forces. -/
def publicationAction (env : PolicyEnv) (s : AgentState) (snapshot : RepairCoordinatorSnapshot) :
    Option MandatoryToolCall :=
  let proof := snapshot.terminalProof.map (·.status)
  let limit := loadMaxRepairCommits env
  if snapshot.requiresExactPipeline then
    some
      { name := .waitPipeline
        arguments := { commitSha := snapshot.latestPushedSha }
        reason := "修复提交已经推送，必须等待与该 SHA 精确匹配的验证流水线。" }
  else if proof = some .success &&
      snapshot.latestExactPipeline.any fun pipeline =>
        pipeline.result.status = .success && pipeline.result.failedJobs = [] then
    some (finishCall true "修复提交已推送，且精确匹配的新流水线全部通过。"
      "最新修复 SHA 已由成功流水线验证。")
  else if proof = some .canceled || proof = some .skipped then
    let status := (proof.getD .absent).text
    let reason := s!"最新修复 SHA 的验证流水线终态为 {status}，无法证明修复成功。"
    some (finishCall false reason reason)
  else if limit ≤ snapshot.publishedAttemptCount then
    let reason := s!"系统拒绝继续提交：本次运行已达到 {limit} 个修复 commit 上限。"
    some (finishCall false (buildFailedSummary s reason) reason)
  else none

/-- The Pipeline that the repair works on. -/
def currentPipeline (snapshot : RepairCoordinatorSnapshot) : Option SequencedResult :=
  if snapshot.latestPushAttempt.isSome then snapshot.latestExactPipeline
  else snapshot.ledger.pipelines.reverse.find? (·.result.pipelineStatus ≠ .absent)

/-- The call that saves the evidence of the Pipeline the agent was started for. -/
def fetchAction (s : AgentState) : Option MandatoryToolCall :=
  if s.pipelineId.isNone && s.commitSha = "" then none
  else
    some
      { name := .fetchPipelineLogs
        arguments := { pipelineId := s.pipelineId, commitSha := s.commitSha }
        reason := "必须先保存当前流水线的精确失败证据。" }

/-- `next_mandatory_pipeline_action`. -/
def nextMandatoryPipelineAction (env : PolicyEnv) (s : AgentState) : Option MandatoryToolCall :=
  if s.triggerType ≠ .pipelineFailed then none
  else
    let snapshot := buildRepairSnapshot s.messages
    match publicationAction env s snapshot with
    | some action => some action
    | none =>
      match currentPipeline snapshot with
      | none => fetchAction s
      | some pipeline =>
        if pipeline.result.pipelineStatus ≠ .failed then none
        else if env.nativeBackend then
          nextNativePipelineAction env s snapshot.ledger pipeline
        else nextGenerateAction env s snapshot.ledger pipeline

/-! ## The agent's turn -/

/-- What one turn of the agent adds to the conversation. -/
inductive AgentTurn where
  | calls (calls : List (ToolName × ToolArgs))
  | text (content : String)
deriving DecidableEq

/-- `_SAFETY_CONVERGENCE_TOOLS`. -/
def ToolName.convergence : ToolName → Bool
  | .waitPipeline | .discardWorkspace | .finish => true
  | _ => false

/-- `is_recoverable_tool_rejection`. -/
def isRecoverableToolRejection (reason : String) : Bool :=
  ["operation=\"investigate\"", "operation=\"repair\"", "discard_workspace_tool",
      "终态证据已保存", "工具调用必须绑定当前 Work Item", "补丁中未找到可校验的 unified diff 路径",
      "补丁路径不安全", "补丁超出当前 Work Item 受控路径", "request_repair_replan_tool",
      "native pipeline repair 必须使用"].any (mentions reason) ||
    ["native_patch_missing:", "native_patch_failed_after_success:",
      "native_diff_review_incomplete:", "native_diff_review_stale:", "native_validation_missing:",
      "native_validation_failed:", "native_validation_checks_missing:",
      "native_validation_profile_missing:", "native_validation_stale:"].any fun code =>
        code.toList <+: reason.toList

/-- The loop of `agent_node` over the calls of the model: the first rejection replaces them all. -/
def reviewCalls (env : PolicyEnv) (s : AgentState) (all : List (ToolName × ToolArgs)) :
    List (ToolName × ToolArgs) → AgentTurn
  | [] => .calls all
  | (name, args) :: rest =>
    match validateToolCall env s name args with
    | .error reason =>
      if isRecoverableToolRejection reason then
        .text s!"{reason} 请按提示执行下一项工具操作后继续。"
      else .calls [(.finish, { success := false, summary := buildFailedSummary s reason })]
    | .ok () =>
      if name ≠ .finish then reviewCalls env s all rest
      else
        match validateFinish env s args with
        | .error reason => .text s!"{reason} 请继续补齐规定的真实证据和修复动作。"
        | .ok () => reviewCalls env s all rest

/-- `agent_node`: a mandatory action comes first, the model's reply is reviewed otherwise. -/
def agentNode
    (env : PolicyEnv)
    (s : AgentState)
    (iteration maxIterations : Nat)
    (reply : AgentTurn) : AgentTurn :=
  let action := nextMandatoryPipelineAction env s
  if maxIterations ≤ iteration && !action.any (·.name.convergence) then
    .text s!"已达到最大迭代次数 {maxIterations}，强制终止。请检查日志了解详情。"
  else
    match action with
    | some call => .calls [(call.name, call.arguments)]
    | none =>
      match reply with
      | .text content => .text content
      | .calls calls => reviewCalls env s calls calls

end MrAgent
