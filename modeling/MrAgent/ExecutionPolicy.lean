import MrAgent.RepairProgress

namespace MrAgent

/-!
# The execution policy of a repair run

`execution_policy.py`: which tool calls and which endings the agent may choose
in a state. Both checks read the whole history through the ledger; a rejection
carries the reason that the agent is shown.
-/

/-! ## Names and texts -/

/-- The name of a tool in the source. -/
def ToolName.text : ToolName → String
  | .fetchPipelineLogs => "fetch_pipeline_logs_tool"
  | .cloneSourceBranch => "clone_source_branch_tool"
  | .resolveDependencyEvidence => "resolve_dependency_evidence_tool"
  | .generateCode => "generate_code_tool"
  | .discardWorkspace => "discard_workspace_tool"
  | .commitAndPush => "commit_and_push_tool"
  | .waitPipeline => "wait_pipeline_tool"
  | .finish => "finish_tool"
  | .searchRepo => "search_repo_tool"
  | .readRepoFile => "read_repo_file_tool"
  | .fetchCoverageReport => "fetch_coverage_report_tool"
  | .applyFormatReport => "apply_format_report_tool"
  | .requestRepairReplan => "request_repair_replan_tool"
  | .applyRepoPatch => "apply_repo_patch_tool"
  | .inspectRepoDiff => "inspect_repo_diff_tool"
  | .runRepoValidation => "run_repo_validation_tool"
  | .other name => name

/-- Membership in `allowed_tools`. -/
def ToolName.allowedInRepair : ToolName → Bool
  | .other _ => false
  | _ => true

/-- The text of a status. -/
def ResultStatus.text : ResultStatus → String
  | .absent => ""
  | .ok => "ok"
  | .success => "success"
  | .changed => "changed"
  | .partialChanges => "partial_changes"
  | .unexpectedChanges => "unexpected_changes"
  | .unsafeChanges => "unsafe_changes"
  | .noChanges => "no_changes"
  | .blocked => "blocked"
  | .error => "error"
  | .running => "running"
  | .resolved => "resolved"
  | .notApplicable => "not_applicable"
  | .notFound => "not_found"
  | .ambiguous => "ambiguous"
  | .limitExceeded => "limit_exceeded"
  | .investigated => "investigated"
  | .investigationTimeout => "investigation_timeout"
  | .repairNoChanges => "repair_no_changes"
  | .repairTimeout => "repair_timeout"
  | .incomplete => "incomplete"
  | .codingInfraError => "coding_infra_error"
  | .unknown => "unknown"
  | .other text => text

/-- The text of a Pipeline status. -/
def PipelineStatus.text : PipelineStatus → String
  | .absent => ""
  | .created => "created"
  | .pending => "pending"
  | .preparing => "preparing"
  | .running => "running"
  | .waitingForResource => "waiting_for_resource"
  | .success => "success"
  | .failed => "failed"
  | .canceled => "canceled"
  | .skipped => "skipped"
  | .other text => text

/-- `str` of an optional number. -/
def numberText : Option Int → String
  | none => "None"
  | some number => toString number

/-- `phrase in text`. -/
def mentions (text phrase : String) : Bool :=
  phrase.toList <:+: text.toList

/-! ## Pipelines that have been fetched -/

/-- `first or second` on optional numbers. -/
def orNumber (first second : Option Int) : Option Int :=
  if first.any (· ≠ 0) then first else second

/-- `_pipeline_identity_matches`. -/
def pipelineIdentityMatches (pipeline : ToolResult) (pipelineId : Option Int) (commitSha : String) :
    Bool :=
  (pipelineId.isNone || pipelineId ∈
      [pipeline.pipelineId, pipeline.rootPipelineId.getD none, pipeline.validationPipelineId]) &&
    (commitSha = "" || commitSha ∈ [pipeline.requestedCommitSha, pipeline.matchedCommitSha]) &&
    (pipelineId.isSome || commitSha ≠ "")

/-- The `pipeline_status`, or the `status` of a result without one, is not terminal. -/
def fetchNonterminal (pipeline : ToolResult) : Bool :=
  if pipeline.pipelineStatus = .absent then
    pipeline.status.text ∈
      ["", "created", "pending", "preparing", "running", "waiting_for_resource"]
  else pipeline.pipelineStatus.nonterminal

/-- `repeated_pipeline_fetch_reason`; the error is the reason. -/
def repeatedPipelineFetch (s : AgentState) (args : ToolArgs) : Except String Unit :=
  let pipelineId := orNumber args.pipelineId s.pipelineId
  let commitSha := orElse args.commitSha s.commitSha
  match (buildExecutionLedger s.messages).pipelines.reverse.find? fun pipeline =>
      pipelineIdentityMatches pipeline.result pipelineId commitSha with
  | none => .ok ()
  | some pipeline =>
    if fetchNonterminal pipeline.result then .ok ()
    else
      let number := numberText (orNumber pipeline.result.pipelineId pipelineId)
      .error
        s!"流水线 #{number} 的终态证据已保存，禁止重复获取相同日志；请按已保存的 root_cause_groups 执行下一步。"

/-! ## The code generator -/

/-- The text without its white space has at least twenty characters. -/
def precise (diagnostic : String) : Bool :=
  20 ≤ (diagnostic.toList.filter fun c => !isSpace c).length

/-- `_has_current_repair_session_attempt`. -/
def hasCurrentRepairSessionAttempt (ledger : ExecutionLedger) (args : ToolArgs) : Bool :=
  let job := args.jobName.getD ""
  match ledger.pipelines.reverse.find? fun pipeline =>
      pipeline.result.pipelineStatus = .failed &&
        pipeline.result.rootCauseGroups.any fun group =>
          if args.rootCauseId = "" then job ∈ group.jobNames
          else group.rootCauseId = args.rootCauseId with
  | none => false
  | some pipeline =>
    ledger.toolAttempts.any fun attempt =>
      attempt.sequence > pipeline.sequence && attempt.name = .generateCode &&
        attempt.operation = .repairSession &&
        (if args.rootCauseId = "" then
          orElse (attempt.args.jobName.getD "") attempt.facts.jobName = job
        else attempt.rootCauseId = args.rootCauseId)

/-- The attempt is for the root cause of the call, or for its job when it names no root cause. -/
def ToolAttempt.sameTarget (attempt : ToolAttempt) (args : ToolArgs) : Bool :=
  if args.rootCauseId = "" then attempt.args.jobName = some (args.jobName.getD "")
  else attempt.rootCauseId = args.rootCauseId

/-- `_has_precise_pipeline_evidence`. -/
def hasPrecisePipelineEvidence (ledger : ExecutionLedger) (args : ToolArgs) : Bool :=
  ledger.pipelines.any fun pipeline =>
    pipeline.result.pipelineStatus = .failed &&
      pipeline.result.rootCauseGroups.any fun group =>
        (if args.rootCauseId = "" then args.jobName.getD "" ∈ group.jobNames
        else group.rootCauseId = args.rootCauseId) && precise group.canonicalDiagnostic

/-- An investigation that found something, or that stopped after searching enough. -/
def usableInvestigation (result : ToolResult) : Bool :=
  result.status = .investigated ||
    result.status = .investigationTimeout &&
      (result.failureKind = .searchLoop || result.failureKind = .executionBudgetExhausted)

/-- `_has_usable_investigation_attempt`. -/
def hasUsableInvestigationAttempt (ledger : ExecutionLedger) (args : ToolArgs) : Bool :=
  ledger.toolAttempts.any fun attempt =>
    attempt.name = .generateCode && attempt.result.isSome && attempt.operation = .investigate &&
      attempt.sameTarget args && usableInvestigation attempt.facts

/-- `_has_investigation_evidence`. -/
def hasInvestigationEvidence (ledger : ExecutionLedger) (args : ToolArgs) : Bool :=
  (ledger.toolAttempts.any fun attempt =>
    attempt.name = .generateCode && attempt.result.isSome && attempt.operation = .investigate &&
      attempt.facts.status = .investigated && attempt.sameTarget args &&
      precise attempt.facts.diagnostic) ||
    hasPrecisePipelineEvidence ledger args && hasUsableInvestigationAttempt ledger args

/-- `root_cause_id or job_name or "unknown"`. -/
def targetText (args : ToolArgs) : String :=
  orElse args.rootCauseId (orElse (args.jobName.getD "") "unknown")

/-- The checks on a root cause that may not be changed any more. -/
def validateRootProgress (env : PolicyEnv) (ledger : ExecutionLedger) (args : ToolArgs) :
    Except String Unit :=
  if args.rootCauseId ≠ "" && (args.operation = .repair || args.operation = .repairSession) then
    match progressOf env ledger args.rootCauseId with
    | none => .ok ()
    | some progress =>
      match progress.state with
      | .repeatExhausted =>
        .error
          s!"系统拒绝继续修改根因组 {args.rootCauseId}：该根因组已在 {progress.failedValidations} 个精确 SHA 验证流水线中原样失败。"
      | .blocked =>
        .error s!"系统拒绝继续修改根因组 {args.rootCauseId}：该根因组已有有效阻塞证据。"
      | _ => .ok ()
  else .ok ()

/-- The checks on repeated and premature calls for one target. -/
def validateGenerateOrder (ledger : ExecutionLedger) (args : ToolArgs) : Except String Unit :=
  if args.operation = .repairSession && hasCurrentRepairSessionAttempt ledger args then
    .error
      s!"根因组 {targetText args} 已对当前流水线证据执行过完整修复会话，禁止无新证据重复运行。"
  else if args.operation = .investigate && hasPrecisePipelineEvidence ledger args &&
      hasUsableInvestigationAttempt ledger args then
    .error
      (s!"根因组 {targetText args} 已有精确 CI 因果错误，且已完成一次定向调查尝试；" ++
        "禁止再次调查搜索，请直接调用 generate_code_tool(operation=\"repair\")，" ++
        "让 Hermes 根据系统注入的原始错误执行最小安全修复。")
  else if args.operation = .repair && !hasInvestigationEvidence ledger args then
    .error
      (s!"系统拒绝直接修复根因组 {targetText args}：请先对同一 root_cause_id 调用 " ++
        "generate_code_tool(operation=\"investigate\")，并取得明确诊断证据。")
  else .ok ()

/-- The branch of `validate_tool_call` for the code generator. -/
def validateGenerate
    (env : PolicyEnv)
    (s : AgentState)
    (ledger : ExecutionLedger)
    (args : ToolArgs) : Except String Unit :=
  if s.triggerType = .pipelineFailed then
    if env.nativeBackend then
      .error
        ("系统拒绝调用 Hermes：native pipeline repair 必须使用 search_repo_tool、" ++
          "apply_repo_patch_tool、inspect_repo_diff_tool 和 run_repo_validation_tool。")
    else
      match validateRootProgress env ledger args with
      | .error reason => .error reason
      | .ok () =>
        match validateGenerateOrder ledger args with
        | .error reason => .error reason
        | .ok () => evaluateHermesBudget env s args
  else evaluateHermesBudget env s args

/-! ## Native tools, discarding and committing -/

/-- `repr` of a list of texts without quotes in them. -/
def listText (values : List String) : String :=
  "[" ++ ", ".intercalate (values.map fun value => "'" ++ value ++ "'") ++ "]"

/-- The error of `_safe_path` for a path that it rejects. -/
def pathError (path : String) : String :=
  let normalized := (strip path.toList).map fun c => if c = '\\' then '/' else c
  if "/".toList <+: normalized || "./".toList <+: normalized || "../".toList <+: normalized ||
      Char.ofNat 0 ∈ normalized then "repair plan path must be repository-relative"
  else "repair plan path is unsafe"

/-- The checks of `validate_tool_call` on the paths of a patch. -/
def validatePatchPaths (item : RepairWorkItem) (paths : List String) : Except String Unit :=
  if paths = [] then .error "补丁中未找到可校验的 unified diff 路径。"
  else
    match paths.find? fun path => (normalizeRepairPath path).isNone with
    | some path => .error s!"补丁路径不安全：{pathError path}"
    | none =>
      let outside := (paths.filterMap normalizeRepairPath).filter (· ∉ item.allowedPaths)
      if outside ≠ [] then
        .error
          (s!"补丁超出当前 Work Item 受控路径：{listText outside}；" ++
            "请先用仓库证据调用 request_repair_replan_tool 扩展计划。")
      else .ok ()

/-- The checks on a native tool during the repair of a Pipeline. -/
def validateNativeTool (env : PolicyEnv) (s : AgentState) (name : ToolName) (args : ToolArgs) :
    Except String Unit :=
  match latestRepairPlan s, activeWorkItem env.toPlanEnv s with
  | some _, some current =>
    if args.workItemId ≠ current.workItemId then
      .error s!"工具调用必须绑定当前 Work Item：{current.workItemId}。"
    else if name = .applyRepoPatch then validatePatchPaths current args.patchPaths
    else .ok ()
  | _, _ => .error "当前失败快照尚无可执行 RepairPlan/Work Item。"

/-- One round of the loop of `_has_unresolved_unsafe_changes`. -/
def unsafeAfter (unresolved : Bool) (attempt : ToolAttempt) : Bool :=
  if attempt.name = .generateCode && attempt.facts.status = .unsafeChanges then true
  else if attempt.name = .discardWorkspace && attempt.facts.status = .success then false
  else unresolved

/-- `_has_unresolved_unsafe_changes`. -/
def hasUnresolvedUnsafeChanges (ledger : ExecutionLedger) : Bool :=
  ledger.toolAttempts.foldl unsafeAfter false

/-- One round of the loop of `_latest_unresolved_workspace_change`. -/
def pendingAfter (pending : Option ToolAttempt) (attempt : ToolAttempt) : Option ToolAttempt :=
  let status := attempt.facts.status
  if attempt.name = .discardWorkspace && status = .success then none
  else if attempt.name = .commitAndPush && (status = .success || status = .noChanges) then none
  else if attempt.name = .generateCode &&
      status ∈ [.changed, .partialChanges, .unexpectedChanges, .unsafeChanges] &&
      attempt.facts.changedFiles ≠ [] then some attempt
  else if attempt.name = .applyFormatReport && status = .changed then some attempt
  else pending

/-- `_latest_unresolved_workspace_change`. -/
def latestUnresolvedWorkspaceChange (ledger : ExecutionLedger) : Option ToolAttempt :=
  ledger.toolAttempts.foldl pendingAfter none

/-- The result of the pending change; empty when nothing is pending. -/
def pendingResult (ledger : ExecutionLedger) : ToolResult :=
  ((latestUnresolvedWorkspaceChange ledger).map ToolAttempt.facts).getD {}

/-- The pending change has passed the check of its repair report. -/
def validCandidate (change : ToolAttempt) : Bool :=
  change.name = .generateCode && change.operation = .repairSession &&
    change.facts.status = .changed &&
    change.facts.terminalProtocolStatus = "valid_candidate" && change.facts.repairReport

/-- The branch of `validate_tool_call` for discarding the workspace. -/
def validateDiscard (ledger : ExecutionLedger) : Except String Unit :=
  if (latestUnresolvedWorkspaceChange ledger).any validCandidate then
    .error "系统拒绝丢弃：当前工作区已有通过有效修复报告校验的修改，请提交并验证流水线。"
  else .ok ()

/-- `_validate_native_commit_preconditions`; the error is the reason. -/
def validateNativeCommitPreconditions
    (env : PolicyEnv)
    (s : AgentState)
    (ledger : ExecutionLedger) : Except String Unit :=
  let native := evaluateNativeCommit (planScopedAttempts s ledger)
  let decision := repairPlanCommitDecision env.toPlanEnv s native
  if decision.allowed then .ok () else .error s!"{decision.errorCode}: {decision.message}"

/-- The status of a change that has not passed its validation. -/
def ResultStatus.unvalidated : ResultStatus → Bool
  | .partialChanges | .unexpectedChanges | .unsafeChanges => true
  | _ => false

/-- The checks on a commit that hold for both backends. -/
def validatePublication (env : PolicyEnv) (s : AgentState) (ledger : ExecutionLedger) :
    Except String Unit :=
  let pending := pendingResult ledger
  let snapshot := buildRepairSnapshot s.messages
  let limit := loadMaxRepairCommits env
  if hasUnresolvedUnsafeChanges ledger then
    .error
      ("系统拒绝提交：工作区包含无当前接口证据的字段替换；" ++
        "请先调用 discard_workspace_tool 丢弃该修改，再根据调查证据重新修复。")
  else if pending.status.unvalidated then
    let code :=
      orElse pending.terminalValidationErrorCode
        (orElse pending.validationError pending.status.text)
    .error
      (s!"系统拒绝提交：当前工作区修改未通过完整修复校验（{code}）；" ++
        "请调用 discard_workspace_tool 丢弃该修改。")
  else if snapshot.requiresExactPipeline then
    .error s!"系统拒绝继续提交：修复提交 {snapshot.latestPushedSha} 尚未完成精确流水线验证。"
  else if limit ≤ snapshot.publishedAttemptCount then
    .error s!"系统拒绝继续提交：本次运行已达到 {limit} 个修复 commit 上限。"
  else .ok ()

/-- The branch of `validate_tool_call` for commit and push. -/
def validateCommit (env : PolicyEnv) (s : AgentState) (ledger : ExecutionLedger) :
    Except String Unit :=
  if s.triggerType = .pipelineFailed && env.nativeBackend then
    match validateNativeCommitPreconditions env s ledger with
    | .error reason => .error reason
    | .ok () => validatePublication env s ledger
  else validatePublication env s ledger

/-- `validate_tool_call`; the error is the reason of the rejection. -/
def validateToolCall (env : PolicyEnv) (s : AgentState) (name : ToolName) (args : ToolArgs) :
    Except String Unit :=
  let ledger := buildExecutionLedger s.messages
  if s.triggerType = .pipelineFailed && !name.allowedInRepair then
    .error s!"当前流水线修复阶段不允许调用 {name.text}。"
  else
    match name with
    | .fetchPipelineLogs => repeatedPipelineFetch s args
    | .generateCode => validateGenerate env s ledger args
    | .discardWorkspace => validateDiscard ledger
    | .commitAndPush => validateCommit env s ledger
    | .searchRepo | .readRepoFile | .requestRepairReplan | .applyFormatReport | .applyRepoPatch
    | .inspectRepoDiff | .runRepoValidation =>
      if s.triggerType = .pipelineFailed && env.nativeBackend then validateNativeTool env s name args
      else .ok ()
    | _ => .ok ()

/-! ## Endings -/

/-- `canonical_job_name or job_name or ""`. -/
def PipelineWorkItem.canonicalJob (item : PipelineWorkItem) : String :=
  orElse item.canonicalJobName item.jobName

/-- The identity by which parent and child Pipelines of one SHA are one observation. -/
def observationIdentity (pipeline : ToolResult) : String × Option Int :=
  let sha := orElse pipeline.matchedCommitSha pipeline.requestedCommitSha
  if sha = "" then ("", pipeline.pipelineId) else (sha, none)

/-- The position at which an observation with some property was first made. -/
def firstObservation
    (ledger : ExecutionLedger)
    (relevant : ToolResult → Bool)
    (pipeline : ToolResult) : Nat :=
  (((ledger.pipelines.filter fun other =>
    relevant other.result && observationIdentity other.result = observationIdentity pipeline).map
      (·.sequence)).min?).getD 0

/-- `_has_validated_dependency_blocker`. -/
def hasValidatedDependencyBlocker
    (item : PipelineWorkItem)
    (attempts : List ToolAttempt)
    (afterSequence : Nat) : Bool :=
  (attempts.reverse.find? fun attempt =>
    attempt.sequence > afterSequence && attempt.name = .resolveDependencyEvidence &&
      (item.rootCauseId = "" || attempt.rootCauseId = item.rootCauseId) &&
      attempt.jobName = item.canonicalJob).any fun attempt =>
    attempt.facts.status = .blocked &&
      (attempt.facts.blocker.any (·.blockerType = "external_dependency")) &&
      (validateBlockerRecord attempt.facts.blocker item.canonicalJob).isNone

/-- The loop of `_canonical_work_items` over the items whose root cause is not yet seen. -/
def canonicalFrom (seen : List String) : List PipelineWorkItem → List PipelineWorkItem
  | [] => []
  | item :: rest =>
    if item.rootCauseId = "" then item :: canonicalFrom seen rest
    else if item.rootCauseId ∈ seen then canonicalFrom seen rest
    else
      let group := item :: rest.filter (·.rootCauseId = item.rootCauseId)
      (group.find? (·.jobName = item.canonicalJobName)).getD item ::
        canonicalFrom (item.rootCauseId :: seen) rest

/-- `_canonical_work_items`: one item for each root cause. -/
def canonicalWorkItems (items : List PipelineWorkItem) : List PipelineWorkItem :=
  canonicalFrom [] items

/-- `_has_verified_failed_repair`. -/
def hasVerifiedFailedRepair
    (env : PolicyEnv)
    (s : AgentState)
    (item : PipelineWorkItem)
    (ledger : ExecutionLedger)
    (terminalSequence : Nat) : Bool :=
  if env.nativeBackend then
    item.rootCauseId ≠ "" && 0 < env.failedValidationCounts s item.rootCauseId
  else
    let repairs := ledger.toolAttempts.filter fun attempt =>
      attempt.sequence < terminalSequence && attempt.name = .generateCode &&
        attempt.operation = .repair &&
        attempt.facts.status ∈ [.changed, .partialChanges, .unexpectedChanges] &&
        (if item.rootCauseId = "" then attempt.args.jobName = some item.canonicalJob
        else attempt.rootCauseId = item.rootCauseId)
    repairs.any fun repair =>
      (ledger.toolAttempts.filter fun attempt =>
        repair.sequence < attempt.sequence && attempt.sequence < terminalSequence &&
          attempt.publishes).any fun push =>
        ledger.pipelines.any fun pipeline =>
          push.sequence < pipeline.sequence && pipeline.sequence ≤ terminalSequence &&
            pipeline.result.pipelineStatus = .failed &&
            pipeline.result.requestedCommitSha = push.facts.commitSha &&
            pipeline.result.matchedCommitSha = push.facts.commitSha

/-- `_validate_native_attempt`: an unproven native repair never ends a run. -/
def validateNativeAttempt (jobName : String) (attempts : List ToolAttempt) (afterSequence : Nat) :
    Except String Unit :=
  let evidence := buildNativeRepairEvidence (attempts.filter (·.sequence > afterSequence))
  if evidence.lastPatchSequence < 0 then
    .error s!"{jobName} 尚未调用 apply_repo_patch_tool 尝试真实修复。"
  else if evidence.failedPatchAfterSuccess || evidence.lastPatchStatus ≠ .changed then
    .error s!"{jobName} 的 Native patch 尚未成功，请根据工具诊断重新修复。"
  else .error s!"{jobName} 已产生代码修改，必须提交并验证新流水线。"

/-- The phase of the repair of one job. -/
inductive RepairPhase where
  | noRepair
  | repairNoChanges
  | repairIncomplete
  | verifyIncomplete
  | pendingChanges
  | blocked
deriving DecidableEq

/-- The local variables of `_validate_generate_attempt`. -/
structure PhaseScan where
  phase : RepairPhase := .noRepair
  phaseError : String := ""
  beforePending : RepairPhase := .noRepair

/-- `validation_error or message or status or "unknown"`. -/
def attemptError (result : ToolResult) : String :=
  orElse result.validationError (orElse result.message (orElse result.status.text "unknown"))

/-- One round of the loop of `_validate_generate_attempt`. -/
def PhaseScan.attempt (jobName : String) (scan : PhaseScan) (attempt : ToolAttempt) : PhaseScan :=
  let result := attempt.facts
  if attempt.name = .discardWorkspace && result.status = .success then
    if scan.phase = .pendingChanges then
      { scan with phase := scan.beforePending, phaseError := "" }
    else scan
  else if attempt.name ≠ .generateCode || attempt.args.jobName ≠ some jobName then scan
  else if result.status ∈ [.changed, .partialChanges, .unexpectedChanges] then
    { scan with
      beforePending := if attempt.operation = .repair then .noRepair else scan.phase
      phase := .pendingChanges }
  else if attempt.operation = .repair then
    if result.status = .repairNoChanges then
      { scan with phase := .repairNoChanges, phaseError := "" }
    else { scan with phase := .repairIncomplete, phaseError := attemptError result }
  else if attempt.operation ≠ .verifyBlocker || scan.phase ≠ .repairNoChanges then scan
  else if result.status ≠ .blocked then
    { scan with phase := .verifyIncomplete, phaseError := attemptError result }
  else
    match validateBlockerRecord result.blocker jobName with
    | some error => { scan with phase := .verifyIncomplete, phaseError := error }
    | none => { scan with phase := .blocked, phaseError := "" }

/-- `_validate_generate_attempt`. -/
def validateGenerateAttempt
    (jobName : String)
    (attempts : List ToolAttempt)
    (afterSequence : Nat) : Except String Unit :=
  let scan :=
    (attempts.filter (·.sequence > afterSequence)).foldl (PhaseScan.attempt jobName) {}
  match scan.phase with
  | .blocked => .ok ()
  | .pendingChanges =>
    .error
      (s!"{jobName} 已产生代码修改，必须提交并验证新流水线；" ++
        "若修改与修复任务无关，先调用 discard_workspace_tool 显式丢弃。")
  | .repairNoChanges =>
    .error
      (s!"{jobName} 已完成真实修复尝试但未产生改动；请调用 generate_code_tool(job_name=\"{jobName}\", " ++
        "operation=\"verify_blocker\", task_description=\"验证仓库内是否确实不存在安全修复路径\")。")
  | .verifyIncomplete =>
    .error
      (s!"{jobName} 的 blocker 验证未完成：{scan.phaseError}；请重新调用 " ++
        s!"generate_code_tool(job_name=\"{jobName}\", operation=\"verify_blocker\", " ++
        "task_description=\"补齐当前 job 的结构化阻塞证据\")。")
  | .repairIncomplete =>
    .error
      (s!"{jobName} 的 repair 操作未完成：{scan.phaseError}；请重新调用 " ++
        s!"generate_code_tool(job_name=\"{jobName}\", operation=\"repair\", " ++
        "task_description=\"根据流水线证据尝试最小安全修复\")。")
  | .noRepair =>
    .error
      (s!"{jobName} 尚未完成真实修复尝试；请调用 generate_code_tool(job_name=\"{jobName}\", " ++
        "operation=\"repair\", task_description=\"根据流水线证据尝试最小安全修复\")。")

/-- The last attempt of a tool for a job. -/
def lastJobAttempt
    (attempts : List ToolAttempt)
    (name : ToolName)
    (afterSequence : Nat)
    (jobId : Option Int) : Option ToolAttempt :=
  attempts.reverse.find? fun attempt =>
    attempt.name = name && attempt.sequence > afterSequence && attempt.args.jobId = jobId

/-- The attempt that the backend demands for a job. -/
def validateBackendAttempt
    (env : PolicyEnv)
    (jobName : String)
    (attempts : List ToolAttempt)
    (afterSequence : Nat) : Except String Unit :=
  if env.nativeBackend then validateNativeAttempt jobName attempts afterSequence
  else validateGenerateAttempt jobName attempts afterSequence

/-- `_validate_work_item`. -/
def validateWorkItem
    (env : PolicyEnv)
    (item : PipelineWorkItem)
    (attempts : List ToolAttempt)
    (afterSequence : Nat) : Except String Unit :=
  let jobName := item.jobName
  if item.requiredTool = "apply_format_report_tool" then
    match lastJobAttempt attempts .applyFormatReport afterSequence item.jobId with
    | none =>
      .error
        (s!"{jobName} 尚未调用 apply_format_report_tool(job_id={numberText item.jobId}, " ++
          s!"pipeline_id={numberText item.pipelineId})；缺少本机 clang-format 不能作为阻塞原因。")
    | some attempt =>
      if attempt.facts.status = .changed then
        .error s!"{jobName} 已产生格式修改，必须提交并验证新流水线。"
      else if attempt.facts.status = .noChanges || attempt.facts.status = .blocked then .ok ()
      else .error s!"{jobName} 的 apply_format_report_tool 尚未得到确定性结果。"
  else if item.requiredTool = "fetch_coverage_report_tool" then
    match lastJobAttempt attempts .fetchCoverageReport afterSequence item.jobId with
    | none =>
      .error
        s!"{jobName} 尚未调用 fetch_coverage_report_tool(job_id={numberText item.jobId}) 获取覆盖率证据。"
    | some attempt =>
      if attempt.facts.status = .unknown && attempt.facts.available = some false then .ok ()
      else if attempt.facts.status ≠ .success || attempt.facts.available ≠ some true then
        .error s!"{jobName} 的覆盖率证据不完整。"
      else validateBackendAttempt env jobName attempts afterSequence
  else validateBackendAttempt env jobName attempts afterSequence

/-- The phrases of a summary that leaves something open. -/
def openPhrases : List String :=
  ["需要查看", "待查看", "尚未检查", "仍需检查", "需要检查具体"]

/-- The reasons of `_validate_failed_finish` for one item; none when it is settled. -/
def unmetReason
    (env : PolicyEnv)
    (s : AgentState)
    (ledger : ExecutionLedger)
    (pipeline : SequencedResult)
    (first : Nat)
    (item : PipelineWorkItem) : Option String :=
  if item.rootCauseId ≠ "" &&
      (progressOf env ledger item.rootCauseId).any (·.state = .repeatExhausted) then none
  else if hasValidatedDependencyBlocker item ledger.toolAttempts first then none
  else if hasVerifiedFailedRepair env s item ledger pipeline.sequence then none
  else
    match validateWorkItem env item ledger.toolAttempts first with
    | .ok () => none
    | .error reason => some reason

/-- `_validate_failed_finish`. -/
def validateFailedFinish (env : PolicyEnv) (s : AgentState) (args : ToolArgs) :
    Except String Unit :=
  if openPhrases.any (mentions args.summary) then
    .error "系统拒绝 success=False：总结仍包含“需要查看”等未完成表述。"
  else
    let ledger := buildExecutionLedger s.messages
    match ledger.pipelines.reverse.find? fun pipeline =>
        pipeline.result.pipelineStatus = .failed && pipeline.result.workItems.isSome with
    | none =>
      .error
        ("系统拒绝 success=False：尚未获取包含逐 job work_items 的失败流水线证据；" ++
          "请先调用 fetch_pipeline_logs_tool 并逐个处理所有失败 job。")
    | some pipeline =>
      let first := firstObservation ledger (·.workItems.isSome) pipeline.result
      let unmet :=
        (canonicalWorkItems (pipeline.result.workItems.getD [])).filterMap
          (unmetReason env s ledger pipeline first)
      if unmet ≠ [] then
        .error ("系统拒绝 success=False，以下动作缺失：" ++ " ".intercalate unmet)
      else .ok ()

/-- The success of the latest published SHA is proved. -/
def validateSuccessfulFinish (snapshot : RepairCoordinatorSnapshot) : Except String Unit :=
  let sha := snapshot.latestPushedSha
  if sha = "" then .error "系统拒绝 success=True：没有 Agent 成功推送的 commit SHA。"
  else
    match snapshot.latestExactPipeline with
    | none =>
      .error s!"系统拒绝 success=True：没有找到与最后推送 SHA {sha} 精确匹配的流水线结果。"
    | some pipeline =>
      let result := pipeline.result
      let missingValidation :=
        result.rootPipelineId.isSome && !result.validationPipelineId.any (· ≠ 0)
      if result.status ≠ .success || result.pipelineStatus ≠ .success ||
          result.failedJobs ≠ [] || missingValidation then
        let status := orElse result.pipelineStatus.text (orElse result.status.text "unknown")
        .error s!"系统拒绝 success=True：最后推送 SHA {sha} 的流水线状态为 {status}。"
      else .ok ()

/-- `validate_finish`; the error is the reason of the rejection. -/
def validateFinish (env : PolicyEnv) (s : AgentState) (args : ToolArgs) : Except String Unit :=
  let snapshot := buildRepairSnapshot s.messages
  if s.triggerType = .pipelineFailed then
    match terminalGuard snapshot with
    | .error reason => .error s!"系统拒绝结束任务：{reason}"
    | .ok () =>
      if args.success then validateSuccessfulFinish snapshot else validateFailedFinish env s args
  else if args.success then validateSuccessfulFinish snapshot
  else .ok ()

end MrAgent
