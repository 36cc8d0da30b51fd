import Mathlib
import MrAgent.RepairPlan

namespace MrAgent

/-!
# The planner node

`repair_planner.py` and the plan builders of `repair_plan.py`. A plan is built
from the latest failed Pipeline, or revised for the active work item; in both
cases validated objects are copied and updated, and the copy is stored without
being validated again.
-/

/-- `_WORK_ITEM_KIND_ORDER.get(kind, 4)`. -/
def workItemKindOrder (kind : String) : Nat :=
  if kind = "build" then 0
  else if kind = "coverage" || kind = "test" then 1
  else if kind = "format" || kind = "lint" then 2
  else if kind = "merge_check" then 3
  else 4

/-- `part in text`. -/
def containsText (text part : String) : Bool :=
  decide (part.toList <:+: text.toList)

/-- `_required_checks`. -/
def requiredChecks (env : PlanEnv) (kind : String) (jobNames : List String) : List String :=
  let markers := env.lower (" ".intercalate jobNames)
  ["diff_check"] ++
    (if kind = "format" || kind = "lint" then ["lint_check"] else []) ++
    (if kind = "build" then ["build_check"] else []) ++
    (if kind = "coverage" || kind = "test" || containsText markers "test" ||
        containsText markers "coverage" then ["test_check"]
      else [])

/-- The job a Pipeline work item belongs to. -/
def PipelineWorkItem.job (item : PipelineWorkItem) : String :=
  orElse item.jobName item.canonicalJobName

/-- The job names of one group, falling back to its work items and its canonical job. -/
def groupJobNames (group : RootCauseGroup) (related : List PipelineWorkItem) : List String :=
  let named := (group.jobNames.filter fun name => strip name.toList ≠ []).eraseDups
  let fromItems := ((related.map (·.job)).filter (· ≠ "")).eraseDups
  if named ≠ [] then named
  else if fromItems ≠ [] then fromItems
  else [orElse group.canonicalJobName "unknown"]

/-- The values that `_work_items_from_pipeline` passes to `RepairWorkItem` for one group. -/
def draftWorkItem
    (env : PlanEnv)
    (pipeline : ToolResult)
    (rootId : String)
    (group : RootCauseGroup) : RepairWorkItem :=
  let related := (pipeline.workItems.getD []).filter (·.rootCauseId = rootId)
  let jobNames := groupJobNames group related
  let primary := (related.filter (·.kind ≠ "")).argmin fun item => workItemKindOrder item.kind
  let kind := orElse ((primary.map (·.kind)).getD "") "other"
  let tool := orElse ((primary.map (·.requiredTool)).getD "") "apply_repo_patch_tool"
  let checks :=
    requiredChecks env kind jobNames ++
      related.flatMap fun item =>
        requiredChecks env (orElse item.kind "other") (if item.job = "" then [] else [item.job])
  let diagnostic := boundedText group.canonicalDiagnostic 500
  let path := env.diagnosticPath diagnostic
  { workItemId := rootId
    jobNames := jobNames
    kind := kind
    requiredTool := if tool = "generate_code_tool" then "apply_repo_patch_tool" else tool
    failureSignature := rootId
    failureEvidence := [orElse diagnostic ("Pipeline job failure: " ++ jobNames.headD "")]
    hypothesis := diagnostic
    allowedPaths := if path = "" then [] else [path]
    requiredChecks := checks.eraseDups
    status := if related.any (·.preflightBlocked) then .blocked else .pending }

/-- The drafts of all groups that have a root id, at most `MAX_REPAIR_WORK_ITEMS` groups. -/
def draftWorkItems (env : PlanEnv) (pipeline : ToolResult) : List RepairWorkItem :=
  ((pipelineGroups env pipeline).take maxRepairWorkItems).filterMap fun group =>
    let rootId := String.ofList (strip group.rootCauseId.toList)
    if rootId = "" then none else some (draftWorkItem env pipeline rootId group)

/-- The order of the items of a plan: kind, first job name, identity. -/
def itemPriorityLe (env : PlanEnv) (first second : RepairWorkItem) : Prop :=
  let order := fun item : RepairWorkItem => workItemKindOrder item.kind
  let job := fun item : RepairWorkItem => env.lower (item.jobNames.headD "")
  order first < order second ∨ (order first = order second ∧
    (job first < job second ∨ (job first = job second ∧ first.workItemId ≤ second.workItemId)))

instance (env : PlanEnv) : DecidableRel (itemPriorityLe env) := fun first second =>
  inferInstanceAs (Decidable (
    workItemKindOrder first.kind < workItemKindOrder second.kind ∨
      (workItemKindOrder first.kind = workItemKindOrder second.kind ∧
        (env.lower (first.jobNames.headD "") < env.lower (second.jobNames.headD "") ∨
          (env.lower (first.jobNames.headD "") = env.lower (second.jobNames.headD "") ∧
            first.workItemId ≤ second.workItemId)))))

/-- `_work_items_from_pipeline`; `none` is a raised validation error. -/
def workItemsFromPipeline (env : PlanEnv) (pipeline : ToolResult) :
    Option (List RepairWorkItem) :=
  ((draftWorkItems env pipeline).mapM RepairWorkItem.modelValidate).map
    (List.insertionSort (itemPriorityLe env))

/-- The hypotheses that the planning model gave, or none for the fallback. -/
structure PlanAuthor where
  hypotheses : List (String × String) := []
  planningMode : PlanningMode := .deterministicFallback
  plannerModel : String := ""

/-- The item with its hypothesis, when hypotheses were given. -/
def PlanAuthor.hypothesise (author : PlanAuthor) (item : RepairWorkItem) : RepairWorkItem :=
  if author.hypotheses = [] then item
  else
    { item with
      hypothesis :=
        boundedText
          (orElse ((author.hypotheses.lookup item.workItemId).getD "") item.hypothesis) 1000 }

/-- The item after the native backend has marked exhausted roots. -/
def markExhausted (env : PlanEnv) (s : AgentState) (item : RepairWorkItem) : RepairWorkItem :=
  if env.nativeBackend && item.status = .pending &&
      item.workItemId ∈ env.exhaustedRootIds s then
    { item with status := .exhausted }
  else item

/-- The newest message that answered a tool call, `-1` when there is none. -/
def newestEvidence (ledger : ExecutionLedger) (fallback : Int) : Int :=
  match ledger.toolAttempts.map (fun attempt => (attempt.sequence : Int)) with
  | [] => fallback
  | first :: rest => rest.foldl max first

/-- `lineage_id` of `_plan_identifiers`. -/
def lineageIdentifier (env : PlanEnv) (s : AgentState) (identity : PipelineIdentity) : String :=
  env.digest (.lineage s.projectId s.mrId identity.baselineSha identity.pipelineId
    identity.sourceFailureDigest)

/-- `build_initial_repair_plan`; `none` is a raised error. -/
def buildInitialRepairPlan
    (env : PlanEnv)
    (s : AgentState)
    (now : String)
    (author : PlanAuthor) : Option RepairPlan := do
  let pipeline ← latestFailedPipeline s.messages
  let identity := pipelineIdentity env s pipeline
  guard (identity.baselineSha ≠ "")
  let built ← workItemsFromPipeline env pipeline
  guard (built ≠ [])
  let items := (built.map author.hypothesise).map (markExhausted env s)
  let lineageId := lineageIdentifier env s identity
  RepairPlan.construct
    { planId := env.digest (.plan lineageId 1 items)
      lineageId := lineageId
      version := 1
      projectId := s.projectId
      mrId := s.mrId
      baselineSha := identity.baselineSha
      sourcePipelineId := identity.pipelineId
      sourceCommitSha := identity.sourceCommitSha
      sourceFailureDigest := identity.sourceFailureDigest
      evidenceCursor := newestEvidence (buildExecutionLedger s.messages) (-1)
      createdAt := now
      revisionReason := "initial_pipeline_evidence"
      planningMode := author.planningMode
      plannerModel := author.plannerModel
      workItems := items }

/-- What the planning model call comes to; a failure is the lower-case name of its exception. -/
inductive PlannerReply where
  | failed (errorName : String)
  | answered (model : String) (hypotheses : List (String × String))
deriving DecidableEq

/-- `PlannerOutput.model_validate` on the hypotheses of an answer. -/
def plannerOutputValid (hypotheses : List (String × String)) : Bool :=
  hypotheses.length ≤ 20 &&
    (hypotheses.all fun hypothesis => lengthIn 1 80 hypothesis.1 && lengthIn 1 1000 hypothesis.2) &&
    (hypotheses.map (·.1)).Nodup

/-- The body of the `try` of `_initial_plan`; the error is the name of the exception. -/
def modelPlan
    (env : PlanEnv)
    (s : AgentState)
    (now : String)
    (pending : List String) : PlannerReply → Except String RepairPlan
  | .failed errorName => .error errorName
  | .answered model hypotheses =>
    if !plannerOutputValid hypotheses then .error "validationerror"
    else
      let expected := hypotheses.filter (·.1 ∈ pending)
      if !pending.all (· ∈ expected.map (·.1)) then .error "valueerror"
      else
        match buildInitialRepairPlan env s now ⟨expected, .model, model⟩ with
        | some plan => .ok plan
        | none => .error "validationerror"

/-- `_initial_plan`; `none` is a raised error. -/
def initialPlan
    (env : PlanEnv)
    (s : AgentState)
    (now : String)
    (reply : PlannerReply) : Option RepairPlan :=
  match buildInitialRepairPlan env s now {} with
  | none => none
  | some fallback =>
    if fallback.executableIds = [] then some fallback
    else
      match modelPlan env s now fallback.executableIds reply with
      | .ok plan => some plan
      | .error name => some { fallback with plannerErrorCode := "planner_fallback_" ++ name }

/-- A request for a new plan version. -/
structure ReplanRequest where
  workItemId : String
  reason : String := ""
  hypothesis : String := ""
  proposedPaths : List String := []
  sequence : Int
deriving DecidableEq

/-- `_latest_replan_request`. -/
def latestReplanRequest (s : AgentState) (plan : RepairPlan) : Option ReplanRequest :=
  ((buildExecutionLedger s.messages).replanRequests.reverse.find? fun request =>
    request.result.planId = plan.planId && request.result.lineageId = plan.lineageId &&
      request.result.expectedVersion = (plan.version : Int) &&
      request.sequence > plan.evidenceCursor).map fun request =>
    { workItemId := request.result.workItemId
      reason := request.result.reason
      hypothesis := request.result.hypothesis
      proposedPaths := request.result.proposedPaths
      sequence := request.sequence }

/-- `_verifier_replan_request`. -/
def verifierReplanRequest (s : AgentState) (plan : RepairPlan) : Option ReplanRequest :=
  match latestRepairVerification s with
  | none => none
  | some verification =>
    if verification.planId ≠ plan.planId || verification.planVersion ≠ plan.version ||
        verification.verdict ≠ .replan then none
    else
      some
        { workItemId := verification.workItemId
          reason := verification.reason
          hypothesis := verification.reason
          sequence := newestEvidence (buildExecutionLedger s.messages) plan.evidenceCursor }

/-- The item with the hypothesis and the paths of a request. -/
def reviseItem
    (request : ReplanRequest)
    (proposedPaths : List String)
    (item : RepairWorkItem) : RepairWorkItem :=
  if item.workItemId = request.workItemId then
    { item with
      hypothesis := String.ofList ((orElse request.hypothesis item.hypothesis).toList.take 1000)
      allowedPaths := (item.allowedPaths ++ proposedPaths).eraseDups }
  else item

/-- `build_revised_repair_plan`; `none` is a raised error. -/
def buildRevisedRepairPlan
    (env : PlanEnv)
    (s : AgentState)
    (now : String)
    (plan : RepairPlan)
    (request : ReplanRequest) : Option RepairPlan := do
  guard (plan.version < 50)
  let current ← latestRepairPlan s
  guard (current.planId = plan.planId)
  let item ← activeWorkItem env s
  guard (request.workItemId = item.workItemId)
  guard (plan.evidenceCursor < request.sequence)
  let proposed ← request.proposedPaths.mapM normalizeRepairPath
  let items := plan.workItems.map (reviseItem request proposed.eraseDups)
  RepairPlan.construct
    { plan with
      planId := env.digest (.plan plan.lineageId (plan.version + 1) items)
      version := plan.version + 1
      evidenceCursor := request.sequence
      createdAt := now
      revisionReason :=
        String.ofList ((orElse request.reason "new_repair_evidence").toList.take 500)
      planningMode := .deterministicFallback
      plannerModel := ""
      plannerErrorCode := ""
      workItems := items }

/-- The plan that `repair_planner_node` appends; `none` when it appends nothing or raises. -/
def repairPlannerNode
    (env : PlanEnv)
    (s : AgentState)
    (now : String)
    (reply : PlannerReply) : Option RepairPlan :=
  if repairPlanRequired env s then initialPlan env s now reply
  else
    match (latestRepairPlan s).filter (planMatchesLatestPipeline env s) with
    | none => none
    | some plan =>
      match (latestReplanRequest s plan).or (verifierReplanRequest s plan) with
      | none => none
      | some request => buildRevisedRepairPlan env s now plan request

/-- The state with one more stored plan. -/
def AgentState.addPlan (s : AgentState) (plan : RepairPlan) : AgentState :=
  { s with repairPlans := s.repairPlans ++ [plan] }

/-- The state with one more stored verification. -/
def AgentState.addVerification (s : AgentState) (verification : RepairVerification) :
    AgentState :=
  { s with repairVerifications := s.repairVerifications ++ [verification] }

/-- The state after more of the conversation. -/
def AgentState.addMessages (s : AgentState) (more : List Message) : AgentState :=
  { s with messages := s.messages ++ more }

end MrAgent
