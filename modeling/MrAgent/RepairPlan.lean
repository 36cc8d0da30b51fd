import Mathlib
import MrAgent.NativeRepairState

namespace MrAgent

/-!
# Repair plans

`repair_plan.py`: the plan records, what their readers accept, and the pure
scheduling functions over the append-only lists of plans and verifications. The
planner stores records that it has copied and updated; every reader validates
a stored record again and skips it when that fails. A stored record of another
shape is one more record that fails validation.
-/

/-- `MAX_REPAIR_WORK_ITEMS`. -/
def maxRepairWorkItems : Nat := 20

/-- `MAX_WORK_ITEM_PATHS`. -/
def maxWorkItemPaths : Nat := 30

/-- `MAX_WORK_ITEM_EVIDENCE`. -/
def maxWorkItemEvidence : Nat := 10

/-- `MAX_PLAN_VERSIONS`. -/
def maxPlanVersions : Nat := 50

/-- A full match of `_SAFE_ID`. -/
def safeId (value : String) : Bool :=
  match value.toList with
  | [] => false
  | first :: rest =>
    first.isAlphanum && rest.length ≤ 79 &&
      rest.all fun c => c.isAlphanum || c ∈ ['_', '.', ':', '-']

/-- `str.split()`: the maximal runs of characters that are not white space. -/
def words (text : List Char) : List (List Char) :=
  (text.splitOnP isSpace).filter (· ≠ [])

/-- `_bounded_text`. -/
def boundedText (value : String) (limit : Nat) : String :=
  String.ofList (([' '].intercalate (words value.toList)).take limit)

/-- `_safe_path`; `none` is the raised error. -/
def safePath (path : String) : Option String :=
  let normalized := (strip path.toList).map fun c => if c = '\\' then '/' else c
  if "/".toList <+: normalized || "./".toList <+: normalized || "../".toList <+: normalized ||
      Char.ofNat 0 ∈ normalized then none
  else if normalized = [] ||
      ((normalized.splitOn '/').any fun part => part = "..".toList || part = ".git".toList) then none
  else some (String.ofList normalized)

/-- `normalize_repair_path`. -/
def normalizeRepairPath (path : String) : Option String :=
  safePath path

/-- Status of a work item. -/
inductive WorkItemStatus where
  | pending
  | blocked
  | superseded
  | exhausted
deriving DecidableEq

/-- `RepairWorkItem`. -/
structure RepairWorkItem where
  workItemId : String
  jobNames : List String
  kind : String
  requiredTool : String
  failureSignature : String
  failureEvidence : List String
  hypothesis : String := ""
  allowedPaths : List String := []
  requiredChecks : List String := ["diff_check"]
  status : WorkItemStatus := .pending
deriving DecidableEq

/-- `_validate_bounded_unique_values`. -/
def boundedUniqueValues (values : List String) : Option (List String) :=
  let normalized := values.map (boundedText · 500)
  if "" ∈ normalized || ¬normalized.Nodup then none else some normalized

/-- `_validate_paths`. -/
def validatePaths (values : List String) : Option (List String) :=
  match values.mapM safePath with
  | none => none
  | some normalized => if normalized.Nodup then some normalized else none

/-- The length of a text lies between two bounds. -/
def lengthIn (least most : Nat) (value : String) : Bool :=
  least ≤ value.length && value.length ≤ most

namespace RepairWorkItem

/-- The bounds of the fields, and the identity pattern. -/
def fieldsValid (item : RepairWorkItem) : Bool :=
  lengthIn 1 80 item.workItemId && safeId item.workItemId &&
    (1 ≤ item.jobNames.length && item.jobNames.length ≤ 20) &&
    lengthIn 1 40 item.kind && lengthIn 1 80 item.requiredTool &&
    lengthIn 1 80 item.failureSignature && safeId item.failureSignature &&
    (1 ≤ item.failureEvidence.length && item.failureEvidence.length ≤ maxWorkItemEvidence) &&
    lengthIn 0 1000 item.hypothesis &&
    item.allowedPaths.length ≤ maxWorkItemPaths && item.requiredChecks.length ≤ 10

/-- `RepairWorkItem` built or read from plain values; the texts are normalised. -/
def modelValidate (item : RepairWorkItem) : Option RepairWorkItem :=
  if item.fieldsValid then
    match boundedUniqueValues item.jobNames, boundedUniqueValues item.failureEvidence,
      boundedUniqueValues item.requiredChecks, validatePaths item.allowedPaths with
    | some jobNames, some failureEvidence, some requiredChecks, some allowedPaths =>
      some { item with
        jobNames := jobNames
        failureEvidence := failureEvidence
        requiredChecks := requiredChecks
        allowedPaths := allowedPaths }
    | _, _, _, _ => none
  else none

end RepairWorkItem

/-- Who wrote the hypotheses of a plan. -/
inductive PlanningMode where
  | model
  | deterministicFallback
deriving DecidableEq

/-- `RepairPlan`, as it is stored; nothing is promised about its fields. -/
structure RepairPlan where
  schemaVersion : Nat := 1
  planId : String
  lineageId : String
  version : Nat
  projectId : String
  mrId : Nat
  baselineSha : String
  sourcePipelineId : Option Int := none
  sourceCommitSha : String
  sourceFailureDigest : String
  evidenceCursor : Int
  createdAt : String
  revisionReason : String
  planningMode : PlanningMode
  plannerModel : String := ""
  plannerErrorCode : String := ""
  workItems : List RepairWorkItem
deriving DecidableEq

namespace RepairPlan

/-- The identities of the work items. -/
def ids (plan : RepairPlan) : List String :=
  plan.workItems.map (·.workItemId)

/-- The identities of the executable work items, those that are pending. -/
def executableIds (plan : RepairPlan) : List String :=
  (plan.workItems.filter (·.status = .pending)).map (·.workItemId)

/-- The key under which a plan is found again: id, lineage, version and baseline. -/
def key (plan : RepairPlan) : String × String × Nat × String :=
  (plan.planId, plan.lineageId, plan.version, plan.baselineSha)

/-- The bounds of the plan's own fields, and `_unique_work_items`. -/
def fieldsValid (plan : RepairPlan) : Bool :=
  plan.schemaVersion = 1 && lengthIn 64 64 plan.planId && lengthIn 64 64 plan.lineageId &&
    (1 ≤ plan.version && plan.version ≤ maxPlanVersions) && lengthIn 1 300 plan.projectId &&
    lengthIn 1 128 plan.baselineSha && plan.sourcePipelineId.all (1 ≤ ·) &&
    lengthIn 1 128 plan.sourceCommitSha && lengthIn 64 64 plan.sourceFailureDigest &&
    -1 ≤ plan.evidenceCursor && lengthIn 1 80 plan.createdAt &&
    lengthIn 1 500 plan.revisionReason && lengthIn 0 200 plan.plannerModel &&
    lengthIn 0 100 plan.plannerErrorCode &&
    (1 ≤ plan.workItems.length && plan.workItems.length ≤ maxRepairWorkItems) &&
    plan.ids.Nodup

/--
A plan built from work-item objects: pydantic checks the fields of the plan
and takes the objects as they are.
-/
def construct (plan : RepairPlan) : Option RepairPlan :=
  if plan.fieldsValid then some plan else none

/-- `RepairPlan.model_validate` on a stored record: its work items are validated too. -/
def modelValidate (raw : RepairPlan) : Option RepairPlan :=
  match raw.workItems.mapM RepairWorkItem.modelValidate with
  | none => none
  | some items => construct { raw with workItems := items }

end RepairPlan

/-- Verdict of a verification. -/
inductive Verdict where
  | pass
  | replan
  | block
deriving DecidableEq

/-- `RepairVerification`. -/
structure RepairVerification where
  planId : String
  lineageId : String
  planVersion : Nat
  workItemId : String
  baselineSha : String
  diffDigest : String := ""
  verdict : Verdict
  causalAlignment : Bool
  scopeCompliant : Bool
  evidenceSufficient : Bool
  coveredWorkItemIds : List String := []
  reason : String
  risks : List String := []
  model : String := ""
  errorCode : String := ""
  createdAt : String
deriving DecidableEq

namespace RepairVerification

/-- The key of the plan a verification names. -/
def key (verification : RepairVerification) : String × String × Nat × String :=
  (verification.planId, verification.lineageId, verification.planVersion,
    verification.baselineSha)

/-- The bounds of the fields, and `_validate_coverage`. -/
def fieldsValid (verification : RepairVerification) : Bool :=
  lengthIn 64 64 verification.planId && lengthIn 64 64 verification.lineageId &&
    (1 ≤ verification.planVersion && verification.planVersion ≤ maxPlanVersions) &&
    lengthIn 1 80 verification.workItemId && lengthIn 1 128 verification.baselineSha &&
    lengthIn 0 128 verification.diffDigest &&
    verification.coveredWorkItemIds.length ≤ maxRepairWorkItems &&
    lengthIn 1 1000 verification.reason && verification.risks.length ≤ 10 &&
    lengthIn 0 200 verification.model && lengthIn 0 100 verification.errorCode &&
    lengthIn 1 80 verification.createdAt && verification.coveredWorkItemIds.Nodup &&
    verification.coveredWorkItemIds.all safeId

/-- `RepairVerification` built or read from plain values. -/
def modelValidate (verification : RepairVerification) : Option RepairVerification :=
  if verification.fieldsValid then some verification else none

/-- The verdict is `pass` and all three judgements are positive. -/
def passes (verification : RepairVerification) : Bool :=
  verification.verdict = .pass && verification.causalAlignment && verification.scopeCompliant &&
    verification.evidenceSufficient

end RepairVerification

/-- Why the agent was started. -/
inductive TriggerType where
  | pipelineFailed
  | other (name : String)
deriving DecidableEq

/-- The agent state, as far as the repair policies read it. -/
structure AgentState where
  triggerType : TriggerType := .pipelineFailed
  projectId : String := ""
  mrId : Nat := 0
  pipelineId : Option Int := none
  commitSha : String := ""
  /-- The `workspace_snapshot` has the status `ready`. -/
  workspaceReady : Bool := false
  activeModel : String := ""
  messages : List Message := []
  repairPlans : List RepairPlan := []
  repairVerifications : List RepairVerification := []
deriving DecidableEq

/-- One group of the payload of `source_failure_digest`. -/
structure FailureGroup where
  rootCauseId : String
  canonicalDiagnostic : String
  jobNames : List String
deriving DecidableEq

/-- The JSON values that `_digest` is applied to. -/
inductive DigestPayload where
  | failure (groups : List FailureGroup)
  | lineage (projectId : String) (mrId : Nat) (baselineSha : String)
      (sourcePipelineId : Option Int) (sourceFailureDigest : String)
  | plan (lineageId : String) (version : Nat) (workItems : List RepairWorkItem)
deriving DecidableEq

/--
Taken from elsewhere: SHA-256 over canonical JSON, the groups of failed jobs
(for a Pipeline result without groups), the path that `_diagnostic_path` finds,
`str.lower`, the backend, and the roots of `native_exhausted_root_ids`.
-/
structure PlanEnv where
  digest : DigestPayload → String
  buildRootCauseGroups : List FailedJob → List RootCauseGroup
  diagnosticPath : String → String
  lower : String → String
  nativeBackend : Bool
  exhaustedRootIds : AgentState → List String

/-- `latest_failed_pipeline`, the Pipeline alone. -/
def latestFailedPipeline (messages : List Message) : Option ToolResult :=
  ((buildExecutionLedger messages).pipelines.reverse.find?
    (·.result.pipelineStatus = .failed)).map (·.result)

/-- The groups of a Pipeline, built from its failed jobs when it has none. -/
def pipelineGroups (env : PlanEnv) (pipeline : ToolResult) : List RootCauseGroup :=
  if pipeline.rootCauseGroups = [] then env.buildRootCauseGroups pipeline.failedJobs
  else pipeline.rootCauseGroups

/-- `source_failure_digest`. -/
def sourceFailureDigest (env : PlanEnv) (pipeline : ToolResult) : String :=
  env.digest (.failure ((pipelineGroups env pipeline).map fun group =>
    { rootCauseId := group.rootCauseId
      canonicalDiagnostic := boundedText group.canonicalDiagnostic 1000
      jobNames := (group.jobNames.filter (· ≠ "")).insertionSort (· ≤ ·) }))

/-- The identity of a Pipeline, as a plan records it. -/
structure PipelineIdentity where
  baselineSha : String
  pipelineId : Option Int
  sourceCommitSha : String
  sourceFailureDigest : String
deriving DecidableEq

/-- `first or second` on texts. -/
def orElse (first second : String) : String :=
  if first = "" then second else first

/-- `_pipeline_identity`. -/
def pipelineIdentity (env : PlanEnv) (s : AgentState) (pipeline : ToolResult) :
    PipelineIdentity :=
  let baseline := orElse pipeline.matchedCommitSha (orElse pipeline.requestedCommitSha s.commitSha)
  { baselineSha := baseline
    pipelineId :=
      if pipeline.validationPipelineId.any (· ≠ 0) then pipeline.validationPipelineId
      else pipeline.pipelineId
    sourceCommitSha := baseline
    sourceFailureDigest := sourceFailureDigest env pipeline }

/-- `latest_repair_plan`: the last stored record that can be read. -/
def latestRepairPlan (s : AgentState) : Option RepairPlan :=
  s.repairPlans.reverse.findSome? RepairPlan.modelValidate

/-- `latest_repair_verification`. -/
def latestRepairVerification (s : AgentState) : Option RepairVerification :=
  s.repairVerifications.reverse.findSome? RepairVerification.modelValidate

/-- `verification_matches_plan`. -/
def verificationMatchesPlan (plan : RepairPlan) (verification : RepairVerification) : Bool :=
  verification.coveredWorkItemIds ≠ [] && verification.key = plan.key &&
    verification.workItemId ∈ plan.ids &&
    verification.workItemId ∈ verification.coveredWorkItemIds &&
    verification.coveredWorkItemIds.all (· ∈ plan.ids)

/-- `plan_matches_latest_pipeline`. -/
def planMatchesLatestPipeline (env : PlanEnv) (s : AgentState) (plan : RepairPlan) : Bool :=
  match latestFailedPipeline s.messages with
  | none => false
  | some pipeline =>
    let identity := pipelineIdentity env s pipeline
    plan.projectId = s.projectId && plan.mrId = s.mrId &&
      plan.baselineSha = identity.baselineSha && plan.sourcePipelineId = identity.pipelineId &&
      plan.sourceCommitSha = identity.sourceCommitSha &&
      plan.sourceFailureDigest = identity.sourceFailureDigest

/-- `repair_plan_required`. -/
def repairPlanRequired (env : PlanEnv) (s : AgentState) : Bool :=
  match s.triggerType, latestFailedPipeline s.messages with
  | .pipelineFailed, some pipeline =>
    if pipeline.failedJobs = [] ∧ pipeline.rootCauseGroups = [] then false
    else
      match latestRepairPlan s with
      | none => true
      | some plan => !planMatchesLatestPipeline env s plan
  | _, _ => false

/-- The readable plans of the lineage of `plan`, the argument itself first. -/
def lineagePlans (s : AgentState) (plan : RepairPlan) : List RepairPlan :=
  plan :: (s.repairPlans.filterMap RepairPlan.modelValidate).filter
    (·.lineageId = plan.lineageId)

/-- `historical_plans.get(...)`: the last plan that was entered under a key. -/
def historicalPlan
    (s : AgentState)
    (plan : RepairPlan)
    (key : String × String × Nat × String) : Option RepairPlan :=
  (lineagePlans s plan).reverse.find? (·.key = key)

/-- `_valid_lineage_verifications`. -/
def validLineageVerifications (s : AgentState) (plan : RepairPlan) : List RepairVerification :=
  (s.repairVerifications.filterMap RepairVerification.modelValidate).filter fun verification =>
    match historicalPlan s plan verification.key with
    | none => false
    | some source => verificationMatchesPlan source verification

/-- The items that one verification completes. -/
def completedBy (plan : RepairPlan) (verification : RepairVerification) : List String :=
  if verification.passes then verification.coveredWorkItemIds.filter (· ∈ plan.ids)
  else if verification.verdict = .block then [verification.workItemId]
  else []

/-- `completed_work_item_ids` of a given plan; a list that stands for a set. -/
def completedWorkItemIds (s : AgentState) (plan : RepairPlan) : List String :=
  (plan.workItems.filter (·.status ≠ .pending)).map (·.workItemId) ++
    (validLineageVerifications s plan).flatMap (completedBy plan)

/-- `blocked_work_item_ids` of a given plan; a list that stands for a set. -/
def blockedWorkItemIds (s : AgentState) (plan : RepairPlan) : List String :=
  (plan.workItems.filter (·.status = .blocked)).map (·.workItemId) ++
    ((validLineageVerifications s plan).filter fun verification =>
      verification.verdict = .block && verification.workItemId ∈ plan.ids).map (·.workItemId)

/-- The first pending item of a plan that is not completed. -/
def unfinishedItem (s : AgentState) (plan : RepairPlan) : Option RepairWorkItem :=
  plan.workItems.find? fun item =>
    item.status = .pending && item.workItemId ∉ completedWorkItemIds s plan

/-- `active_work_item`. -/
def activeWorkItem (env : PlanEnv) (s : AgentState) : Option RepairWorkItem :=
  match latestRepairPlan s with
  | none => none
  | some plan => if planMatchesLatestPipeline env s plan then unfinishedItem s plan else none

/-- `required_verification_work_item_ids` of the latest plan. -/
def requiredVerificationWorkItemIds (env : PlanEnv) (s : AgentState) : List String :=
  match latestRepairPlan s, activeWorkItem env s with
  | some plan, some item =>
    if plan.executableIds.all fun id =>
        id = item.workItemId || id ∈ completedWorkItemIds s plan then plan.executableIds
    else [item.workItemId]
  | _, _ => []

/-- `plan_scoped_attempts`: the tool facts after the evidence boundary of the latest plan. -/
def planScopedAttempts (s : AgentState) (ledger : ExecutionLedger) : List ToolAttempt :=
  match latestRepairPlan s with
  | none => ledger.toolAttempts
  | some plan => ledger.toolAttempts.filter fun attempt => attempt.sequence > plan.evidenceCursor

/-- `RepairPlanCommitDecision`. -/
structure RepairPlanCommitDecision where
  allowed : Bool
  errorCode : String := ""
  message : String := ""
  planId : String := ""
  diffDigest : String := ""
deriving DecidableEq

/-- The last check of `repair_plan_commit_decision`, on the latest verification. -/
def verificationCommits
    (plan : RepairPlan)
    (native : NativeCommitDecision)
    (verification : RepairVerification) : Bool :=
  verificationMatchesPlan plan verification && verification.passes &&
    verification.diffDigest = native.validatedDiffDigest &&
    plan.executableIds.all (· ∈ verification.coveredWorkItemIds)

/-- `repair_plan_commit_decision`. -/
def repairPlanCommitDecision
    (env : PlanEnv)
    (s : AgentState)
    (native : NativeCommitDecision) : RepairPlanCommitDecision :=
  match (latestRepairPlan s).filter (planMatchesLatestPipeline env s) with
  | none =>
    { allowed := false
      errorCode := "repair_plan_missing_or_stale"
      message := "当前失败快照缺少有效 RepairPlan。" }
  | some plan =>
    if !native.allowed then
      { allowed := false
        errorCode := orElse native.errorCode "native_commit_gate_failed"
        message := native.message
        planId := plan.planId }
    else if native.validatedBaseSha ≠ plan.baselineSha then
      { allowed := false
        errorCode := "repair_baseline_mismatch"
        message := "当前验证结果的基线 SHA 与 RepairPlan 不一致。"
        planId := plan.planId
        diffDigest := native.validatedDiffDigest }
    else if blockedWorkItemIds s plan ≠ [] then
      { allowed := false
        errorCode := "repair_plan_contains_blocked_items"
        message := "RepairPlan 仍包含无法安全修复的 Work Item。"
        planId := plan.planId
        diffDigest := native.validatedDiffDigest }
    else if (activeWorkItem env s).isSome then
      { allowed := false
        errorCode := "repair_plan_work_items_pending"
        message := "RepairPlan 仍有未完成 Work Item。"
        planId := plan.planId
        diffDigest := native.validatedDiffDigest }
    else if !(latestRepairVerification s).any (verificationCommits plan native) then
      { allowed := false
        errorCode := "repair_verification_missing_or_stale"
        message := "当前 RepairPlan 与 Diff 尚未通过完整独立验收。"
        planId := plan.planId
        diffDigest := native.validatedDiffDigest }
    else
      { allowed := true
        planId := plan.planId
        diffDigest := native.validatedDiffDigest }

end MrAgent
