import MrAgent.RepairCoordinator

namespace MrAgent

/-!
# Progress of the root causes

`repair_progress.py` and `blocker_evidence.py`: what the history says about one
root cause, and how often the code generator may still be called for it.
-/

/-! ## Blocker records -/

/-- `_is_non_empty_string`. -/
def nonEmptyText (value : String) : Bool :=
  strip value.toList ≠ []

/-- `ALLOWED_BLOCKER_TYPES`. -/
def allowedBlockerTypes : List String :=
  ["external_dependency", "ci_environment", "provider_outage", "permissions",
    "missing_required_input", "unsupported_repository_state"]

/-- The loop over `ci_evidence`. -/
def ciEvidenceError (jobName : String) : List BlockerEvidence → Option String
  | [] => none
  | item :: rest =>
    if item.jobName ≠ some jobName then some s!"blocker CI 证据必须匹配当前失败 job: {jobName}"
    else if !nonEmptyText item.observation then some "blocker CI 证据 observation 不能为空"
    else ciEvidenceError jobName rest

/-- The loop over `repository_evidence`. -/
def repositoryEvidenceError : List BlockerEvidence → Option String
  | [] => none
  | item :: rest =>
    if !nonEmptyText item.kind then some "blocker 仓库证据 kind 不能为空"
    else if !nonEmptyText item.locator then some "blocker 仓库证据 locator 不能为空"
    else if !nonEmptyText item.observation then some "blocker 仓库证据 observation 不能为空"
    else repositoryEvidenceError rest

/-- `validate_blocker_record`: the error, or `none` for complete evidence. -/
def validateBlockerRecord (record : Option BlockerRecord) (jobName : String) : Option String :=
  match record with
  | none => some "blocker JSON 必须是对象"
  | some record =>
    if record.schemaVersion ≠ 1 then some "blocker schema_version 必须为 1"
    else if record.outcome ≠ "blocked" then some "blocker outcome 必须为 \"blocked\""
    else if record.jobName ≠ some jobName then
      some s!"blocker job_name 必须匹配当前失败 job: {jobName}"
    else if record.blockerType ∉ allowedBlockerTypes then some "blocker_type 不受支持"
    else if !nonEmptyText record.rootCause then some "blocker root_cause 不能为空"
    else if !nonEmptyText record.whyNoSafeRepoChange then
      some "blocker why_no_safe_repo_change 不能为空"
    else if !nonEmptyText record.suggestedAction then some "blocker suggested_action 不能为空"
    else if record.ciEvidence = [] then some "blocker CI 证据不能为空"
    else
      match ciEvidenceError jobName record.ciEvidence with
      | some error => some error
      | none =>
        if record.repositoryEvidence = [] then some "blocker 仓库证据不能为空"
        else
          match repositoryEvidenceError record.repositoryEvidence with
          | some error => some error
          | none =>
            if record.attemptedRepairs = [] then some "blocker attempted_repairs 不能为空"
            else if record.attemptedRepairs.any fun repair => !nonEmptyText repair then
              some "blocker attempted_repairs 每一项都必须是非空字符串"
            else none

/-! ## Root causes -/

namespace ToolAttempt

/-- `args.get("operation") or result.get("operation")`. -/
def operation (attempt : ToolAttempt) : Operation :=
  if attempt.args.operation = .absent then attempt.facts.operation else attempt.args.operation

/-- `_attempt_root_cause_id`. -/
def rootCauseId (attempt : ToolAttempt) : String :=
  orElse attempt.facts.rootCauseId attempt.args.rootCauseId

/-- `result.get("job_name") or args.get("job_name") or ""`. -/
def jobName (attempt : ToolAttempt) : String :=
  orElse attempt.facts.jobName (attempt.args.jobName.getD "")

/-- A repair that changed the workspace for a named root cause. -/
def changedRepair (attempt : ToolAttempt) : Bool :=
  attempt.name = .generateCode &&
    (attempt.operation = .repair || attempt.operation = .repairSession) &&
    attempt.facts.status ∈ [.changed, .partialChanges, .unexpectedChanges] &&
    attempt.rootCauseId ≠ ""

/-- The attempt carries complete blocker evidence for a named root cause. -/
def provesBlocker (attempt : ToolAttempt) : Bool :=
  attempt.rootCauseId ≠ "" && attempt.facts.status = .blocked &&
    (validateBlockerRecord attempt.facts.blocker attempt.jobName).isNone

end ToolAttempt

/-- `_pipeline_root_cause_ids`; a list that stands for a set. -/
def pipelineRootCauseIds (pipelines : List SequencedResult) : List String :=
  pipelines.flatMap fun pipeline =>
    (pipeline.result.rootCauseGroups.map (·.rootCauseId)).filter (· ≠ "")

/-- The state of a root cause. -/
inductive RootCauseState where
  | unattempted
  | blocked
  | repeatExhausted
  | attempted
  | resolved
deriving DecidableEq

/-- `RootCauseProgress`. -/
structure RootCauseProgress where
  rootCauseId : String
  state : RootCauseState := .unattempted
  repairAttempts : Nat := 0
  failedValidations : Nat := 0
  lastCommitSha : String := ""
deriving DecidableEq

/-- The counters of `build_root_cause_progress`; a counter is the list of what it counted. -/
structure ProgressScan where
  repairAttempts : List String := []
  failedValidations : List String := []
  lastCommitSha : List (String × String) := []
  resolved : List String := []
  seenPairs : List (String × String) := []

/-- The push that publishes a repair, before the next one. -/
def repairPush
    (attempts : List ToolAttempt)
    (repair : ToolAttempt)
    (next : Option ToolAttempt) : Option ToolAttempt :=
  attempts.find? fun attempt =>
    repair.sequence < attempt.sequence && next.all (attempt.sequence < ·.sequence) &&
      attempt.publishes

/-- The finished Pipelines of exactly the pushed SHA. -/
def validationResults (pipelines : List SequencedResult) (push : ToolAttempt) :
    List SequencedResult :=
  pipelines.filter fun pipeline =>
    pipeline.sequence > push.sequence &&
      pipeline.result.requestedCommitSha = push.facts.commitSha &&
      pipeline.result.matchedCommitSha = push.facts.commitSha &&
      !pipeline.result.pipelineStatus.nonterminal

/-- One round of the loop over the changed repairs. -/
def ProgressScan.repair
    (pipelines : List SequencedResult)
    (attempts : List ToolAttempt)
    (scan : ProgressScan)
    (repair : ToolAttempt)
    (next : Option ToolAttempt) : ProgressScan :=
  let root := repair.rootCauseId
  let counted := { scan with repairAttempts := root :: scan.repairAttempts }
  match repairPush attempts repair next with
  | none => counted
  | some push =>
    let sha := push.facts.commitSha
    let results := validationResults pipelines push
    if results = [] || (root, sha) ∈ scan.seenPairs then counted
    else
      let validated :=
        { counted with
          seenPairs := (root, sha) :: scan.seenPairs
          lastCommitSha := (root, sha) :: scan.lastCommitSha }
      if root ∈ pipelineRootCauseIds results then
        { validated with failedValidations := root :: scan.failedValidations }
      else { validated with resolved := root :: scan.resolved }

/-- The loop over the changed repairs. -/
def ProgressScan.repairs
    (pipelines : List SequencedResult)
    (attempts : List ToolAttempt) : ProgressScan → List ToolAttempt → ProgressScan
  | scan, [] => scan
  | scan, repair :: rest =>
    repairs pipelines attempts (scan.repair pipelines attempts repair rest.head?) rest

/-- `build_root_cause_progress`. -/
def buildRootCauseProgress (ledger : ExecutionLedger) (noProgressLimit : Nat) :
    List RootCauseProgress :=
  let attempts := ledger.toolAttempts.insertionSort (·.sequence ≤ ·.sequence)
  let repairs := attempts.filter (·.changedRepair)
  let blocked := (attempts.filter (·.provesBlocker)).map (·.rootCauseId)
  let scan := ProgressScan.repairs ledger.pipelines attempts {} repairs
  let roots :=
    pipelineRootCauseIds ledger.pipelines ++ blocked ++ repairs.map (·.rootCauseId)
  let current :=
    pipelineRootCauseIds
      (ledger.pipelines.reverse.find? (·.result.pipelineStatus = .failed)).toList
  (roots.eraseDups.insertionSort (· ≤ ·)).map fun root =>
    { rootCauseId := root
      state :=
        if root ∈ blocked then .blocked
        else if noProgressLimit ≤ scan.failedValidations.count root then .repeatExhausted
        else if root ∈ current ∧ root ∈ scan.repairAttempts then .attempted
        else if root ∉ current ∧ root ∈ scan.resolved then .resolved
        else .unattempted
      repairAttempts := scan.repairAttempts.count root
      failedValidations := scan.failedValidations.count root
      lastCommitSha := (scan.lastCommitSha.lookup root).getD "" }

/-- `_root_cause_progress`. -/
def rootCauseProgress (env : PolicyEnv) (ledger : ExecutionLedger) : List RootCauseProgress :=
  buildRootCauseProgress ledger (env.positiveSetting .noProgressLimit 2)

/-- `progress.get(root_cause_id)`. -/
def progressOf (env : PolicyEnv) (ledger : ExecutionLedger) (root : String) :
    Option RootCauseProgress :=
  (rootCauseProgress env ledger).find? (·.rootCauseId = root)

/-! ## The budget of the code generator -/

/-- `_RepairAttempt`. -/
structure RepairAttempt where
  groupId : String
  operation : Operation
  status : ResultStatus
  fingerprint : String
deriving DecidableEq

/-- The local variables of `_generate_attempts`; the newest call of an id comes first. -/
structure GenerateScan where
  calls : List (String × ToolArgs) := []
  attempts : List RepairAttempt := []

/-- The attempt that one answer of the code generator is. -/
def repairAttempt (env : PolicyEnv) (args : ToolArgs) (result : ToolResult) : RepairAttempt where
  groupId :=
    orElse result.rootCauseId (orElse args.rootCauseId (orElse (args.jobName.getD "") "unknown"))
  operation := if args.operation = .absent then result.operation else args.operation
  status := result.status
  fingerprint :=
    orElse result.progressFingerprint
      (env.fingerprint result.status result.diagnostic result.changedFiles)

/-- One round of the loop of `_generate_attempts`. -/
def GenerateScan.message (env : PolicyEnv) (scan : GenerateScan) (message : Message) :
    GenerateScan :=
  let announced := message.toolCalls.filter (·.name = .generateCode)
  let calls := (announced.map fun call => (call.id, call.args)).reverse ++ scan.calls
  match calls.lookup message.toolCallId with
  | none => { scan with calls := calls }
  | some args =>
    let result := match message.content with
      | .object result => result
      | .text _ => {}
    { calls := calls
      attempts := scan.attempts ++ [repairAttempt env args result] }

/-- `_generate_attempts`. -/
def generateAttempts (env : PolicyEnv) (messages : List Message) : List RepairAttempt :=
  (messages.foldl (GenerateScan.message env) {}).attempts

/-- `no_progress_statuses`. -/
def ResultStatus.noProgress : ResultStatus → Bool
  | .repairNoChanges | .investigated | .incomplete | .codingInfraError | .noChanges
  | .investigationTimeout | .repairTimeout => true
  | _ => false

/-- The trailing attempts without progress that share one fingerprint, the newest first. -/
def consecutiveNoProgress : String → List RepairAttempt → Nat
  | _, [] => 0
  | fingerprint, attempt :: rest =>
    if !attempt.status.noProgress then 0
    else
      let expected := orElse fingerprint attempt.fingerprint
      if attempt.fingerprint ≠ expected then 0 else consecutiveNoProgress expected rest + 1

/-- `evaluate_hermes_budget` for the code generator; the error is the reason. -/
def evaluateHermesBudget (env : PolicyEnv) (s : AgentState) (args : ToolArgs) :
    Except String Unit :=
  let attempts := generateAttempts env s.messages
  let group := orElse args.rootCauseId (orElse (args.jobName.getD "") "unknown")
  let ofGroup := attempts.filter (·.groupId = group)
  let consecutive := consecutiveNoProgress "" ofGroup.reverse
  if args.operation = .investigate &&
      env.positiveSetting .maxInvestigationsPerGroup 2 ≤
        ofGroup.countP (·.operation = .investigate) then
    .error s!"根因组 {group} 已达到 2 次调查上限；请根据现有证据修复或结束。"
  else if env.positiveSetting .maxHermesCallsTotal 12 ≤ attempts.length then
    .error "系统拒绝继续调用 Hermes：已达到本次任务总调用上限。"
  else if env.positiveSetting .maxHermesCallsPerGroup 4 ≤ ofGroup.length then
    .error s!"系统拒绝继续处理根因组 {group}：已达到调用上限。"
  else if env.positiveSetting .noProgressLimit 2 ≤ consecutive then
    .error
      s!"系统拒绝继续处理根因组 {group}：连续 {consecutive} 次 Hermes 调用没有产生新证据或代码变化。"
  else if args.operation = .verifyBlocker &&
      env.positiveSetting .maxBlockerCorrections 1 <
        ofGroup.countP (fun attempt =>
          attempt.operation = .verifyBlocker && attempt.status = .incomplete) then
    .error s!"根因组 {group} 连续未能生成有效阻塞证据，停止重复校正。"
  else .ok ()

end MrAgent
