import MrAgent.BrokerRollback
import MrAgent.PipelineActions
import MrAgent.RepairPlanner

namespace MrAgent

/-!
# The verdict on a repair

`evaluate_repair_outcome` compares the failed jobs before and after a repair,
category by category, and gathers the results of the selected categories into
one verdict. `_finish_pipeline_repair` derives from it whether the commits are
withdrawn. A job belongs to the category whose keywords its name contains.
-/

/-! ## Categories of jobs -/

/-- `_CATEGORY_ORDER`. -/
def categoryOrder : List RepairCategory :=
  [.format, .clang, .build, .unknown]

/-- What the classification reads from the settings. -/
structure CategoryEnv where
  /-- `str.lower`. -/
  lower : String → String
  /-- `FEISHU.PIPELINE_…_JOB_KEYWORDS`, empty when it is not set. -/
  configured : RepairCategory → List String

/-- `_KEYWORD_DEFAULTS`. -/
def keywordDefaults : RepairCategory → List String
  | .format => ["code_format_check", "format"]
  | .clang => ["clang", "clang-tidy"]
  | .build => ["build", "compile", "cmake", "ninja", "coverage"]
  | .pipeline | .unknown => []

/-- `_keywords`. -/
def CategoryEnv.keywords (env : CategoryEnv) (category : RepairCategory) : List String :=
  let values :=
    if env.configured category = [] then keywordDefaults category else env.configured category
  (values.filter (stripped · ≠ "")).map env.lower

/-- `categorize_failed_job` on the name of the job. -/
def CategoryEnv.categorizeFailedJob (env : CategoryEnv) (name : String) : RepairCategory :=
  ((categoryOrder.dropLast.find? fun category =>
    (env.keywords category).any (containsText (env.lower name))).getD .unknown)

/-- A failed GitLab job, as far as the classifications read it. -/
structure ValidationJob where
  name : String
  /-- `auto_repair_eligible` is not `False`. -/
  autoRepairEligible : Bool := true
deriving DecidableEq

/-- `_group_names`: the group of one category; the dictionary has no empty groups. -/
def CategoryEnv.groupNames
    (env : CategoryEnv)
    (jobNames : List String)
    (category : RepairCategory) : List String :=
  ((jobNames.map stripped).filter (· ≠ "")).filter (env.categorizeFailedJob · = category)

/-- `classify_failed_jobs`. -/
def CategoryEnv.classifyFailedJobs
    (env : CategoryEnv)
    (names : List String) : List RepairCategory :=
  categoryOrder.filter fun category => names.any (env.categorizeFailedJob · = category)

/-! ## Results -/

/-- `RepairOutcome`. -/
inductive RepairOutcome where
  | success
  | partialSuccess
  | blocked
  | failed
deriving DecidableEq

/-- The text under which an outcome is stored. -/
def RepairOutcome.value : RepairOutcome → String
  | success => "success"
  | partialSuccess => "partial_success"
  | blocked => "blocked"
  | failed => "failed"

/-- `CategoryRepairOutcome`. -/
inductive CategoryRepairOutcome where
  | succeeded
  | blocked
  | failed
  | notSelected
  | unverified
deriving DecidableEq

/-- The values of `CategoryRepairResult.selection`. -/
inductive RepairSelection where
  | selected
  | effectiveCleanup
  | notSelected
deriving DecidableEq

/-- `CategoryRepairResult`. -/
structure CategoryRepairResult where
  category : RepairCategory
  outcome : CategoryRepairOutcome
  selection : RepairSelection
  sourceFailedJobNames : List String
  validationFailedJobNames : List String
  verifiedRepairedJobNames : List String
  reason : String
deriving DecidableEq

/-- `RepairVerdict`. -/
structure RepairVerdict where
  outcome : RepairOutcome
  categoryResults : List CategoryRepairResult
  introducedFailureCategories : List RepairCategory
  introducedFailedJobNames : List String
deriving DecidableEq

/-- A selected category that validation has shown to have gained something. -/
def CategoryRepairResult.verifiedBenefit (result : CategoryRepairResult) : Bool :=
  result.selection = .selected &&
    (result.outcome = .succeeded ||
      (result.outcome ≠ .unverified && result.verifiedRepairedJobNames ≠ []))

/-- `verified_selected_success_count`. -/
def verifiedSelectedSuccessCount (results : List CategoryRepairResult) : Nat :=
  results.countP (·.verifiedBenefit)

/-! ## `evaluate_repair_outcome` -/

/-- The arguments of `evaluate_repair_outcome`. -/
structure OutcomeInput where
  sourceFailedJobNames : List String
  validationFailedJobs : List ValidationJob
  selectedCategories : List RepairCategory
  effectiveCategories : List RepairCategory := []
  validationReliable : Bool := true
  blockedJobNames : List String := []
deriving DecidableEq

namespace OutcomeInput

def validationNames (input : OutcomeInput) : List String :=
  (input.validationFailedJobs.map fun job => stripped job.name).filter (· ≠ "")

def blockedNames (input : OutcomeInput) : List String :=
  (input.blockedJobNames.map stripped).filter (· ≠ "")

/-- `effective or selected`. -/
def effective (input : OutcomeInput) : List RepairCategory :=
  if input.effectiveCategories = [] then input.selectedCategories else input.effectiveCategories

variable (env : CategoryEnv) (input : OutcomeInput) (category : RepairCategory)

def sourceGroup : List String :=
  env.groupNames input.sourceFailedJobNames category

def validationGroup : List String :=
  env.groupNames input.validationNames category

def blockedGroup : List String :=
  (input.validationGroup env category).filter (· ∈ input.blockedNames)

def nonblockedGroup : List String :=
  (input.validationGroup env category).filter (· ∉ input.blockedNames)

def introducedCategories : List RepairCategory :=
  categoryOrder.filter fun category =>
    input.validationGroup env category ≠ [] && input.sourceGroup env category = [] &&
      (input.validationGroup env category).any (· ∉ input.blockedNames)

def introducedNames : List String :=
  (categoryOrder.filter (· ∈ input.introducedCategories env)).flatMap (input.nonblockedGroup env)

/-- `verified_repaired_names`. -/
def verifiedRepairedNames : List String :=
  if input.validationReliable then
    (input.sourceGroup env category).filter (· ∉ input.validationGroup env category)
  else []

/-- The outcome of a category that was selected or treated along with the selection. -/
def handledOutcome : CategoryRepairOutcome :=
  if input.nonblockedGroup env category ≠ [] then .failed
  else if input.blockedGroup env category ≠ [] then .blocked
  else if !input.validationReliable then .unverified
  else .succeeded

def selection : RepairSelection :=
  if category ∈ input.selectedCategories then .selected
  else if category ∈ input.effective then .effectiveCleanup
  else .notSelected

/-- The reason of a selected category with an outcome. -/
def selectedReason : CategoryRepairOutcome → String
  | .failed => "验证流水线仍有该类非阻塞失败任务"
  | .blocked => "当前类别被外部依赖阻塞"
  | .unverified => "无法可靠确认验证流水线结果"
  | .succeeded | .notSelected => "所选类别的失败任务已全部通过"

/-- The result of one category. -/
def categoryResult : CategoryRepairResult where
  category := category
  outcome :=
    match input.selection category with
    | .selected | .effectiveCleanup => input.handledOutcome env category
    | .notSelected => .notSelected
  selection := input.selection category
  sourceFailedJobNames := input.sourceGroup env category
  validationFailedJobNames := input.validationGroup env category
  verifiedRepairedJobNames := input.verifiedRepairedNames env category
  reason :=
    match input.selection category with
    | .selected => selectedReason (input.handledOutcome env category)
    | .effectiveCleanup =>
      if category = .format then "系统附带处理的格式清理" else "系统附带处理"
    | .notSelected => "本次未选择"

/-- A category appears in the results. -/
def reports : Bool :=
  input.sourceGroup env category ≠ [] || input.validationGroup env category ≠ [] ||
    category ∈ input.selectedCategories || category ∈ input.effective

def categoryResults : List CategoryRepairResult :=
  (categoryOrder.filter (input.reports env)).map (input.categoryResult env)

/-- `selected_results`. -/
def selectedResults : List CategoryRepairResult :=
  (input.categoryResults env).filter (·.selection = .selected)

/-- The verdict on the selected results. -/
def aggregate
    (introducedNames : List String)
    (selectedResults : List CategoryRepairResult) : RepairOutcome :=
  let fullySucceeded := selectedResults.countP (·.outcome = .succeeded)
  if introducedNames ≠ [] then .failed
  else if selectedResults ≠ [] ∧ fullySucceeded = selectedResults.length then .success
  else if verifiedSelectedSuccessCount selectedResults ≠ 0 then .partialSuccess
  else if selectedResults ≠ [] ∧ selectedResults.all (·.outcome = .blocked) then .blocked
  else .failed

end OutcomeInput

/-- `evaluate_repair_outcome`. -/
def evaluateRepairOutcome (env : CategoryEnv) (input : OutcomeInput) : RepairVerdict where
  outcome := OutcomeInput.aggregate (input.introducedNames env) (input.selectedResults env)
  categoryResults := input.categoryResults env
  introducedFailureCategories := input.introducedCategories env
  introducedFailedJobNames := input.introducedNames env

/-! ## The end of a pipeline repair -/

/-- What `_finish_pipeline_repair` reads for the verdict. -/
structure FinishInput where
  selectedCategories : List RepairCategory
  effectiveCategories : List RepairCategory
  sourceFailedNames : List String
  failedCategories : List RepairCategory
  failedJobs : List ValidationJob
  coverageBaselineSha : String
  coverageResult : String
  coverageStatus : String
  blockedJobNames : List String
  pipelineId : Nat
  pipelineStatus : String
  hasRepairCommits : Bool
deriving DecidableEq

namespace FinishInput

variable (env : CategoryEnv) (input : FinishInput)

/-- `selected_categories` with its fallbacks. -/
def selected : List RepairCategory :=
  if input.selectedCategories ≠ [] then input.selectedCategories
  else if input.effectiveCategories ≠ [] then input.effectiveCategories
  else if env.classifyFailedJobs input.sourceFailedNames ≠ [] then
    env.classifyFailedJobs input.sourceFailedNames
  else input.failedCategories

def baselineVerified : Bool :=
  input.coverageBaselineSha ≠ "" && input.coverageResult ≠ ""

def validationReliable : Bool :=
  input.baselineVerified ||
    (input.pipelineId ≠ 0 && input.pipelineStatus ∈ ["success", "failed"] &&
      input.coverageStatus ∉ ["validation_pipeline_missing", "fetch_failed"])

/-- The arguments handed to `evaluate_repair_outcome`. -/
def outcomeInput : OutcomeInput where
  sourceFailedJobNames := input.sourceFailedNames
  validationFailedJobs := if input.baselineVerified then [] else input.failedJobs
  selectedCategories := input.selected env
  effectiveCategories := input.effectiveCategories
  validationReliable := input.validationReliable
  blockedJobNames := input.blockedJobNames

def verdict : RepairVerdict :=
  evaluateRepairOutcome env (input.outcomeInput env)

def selectedSuccessCount : Nat :=
  verifiedSelectedSuccessCount (input.verdict env).categoryResults

end FinishInput

/-- `legacy_pipeline_success`. -/
def legacyPipelineSuccess
    (selected : List RepairCategory)
    (pipelineStatus : String)
    (failedJobs : List ValidationJob) : Bool :=
  selected = [] && pipelineStatus = "success" && failedJobs = []

/-- `auto_rollback_required`. -/
def autoRollbackRequired
    (selectedSuccessCount : Nat)
    (hasRepairCommits legacyPipelineSuccess : Bool) : Bool :=
  selectedSuccessCount = 0 && hasRepairCommits && !legacyPipelineSuccess

namespace FinishInput

variable (env : CategoryEnv) (input : FinishInput)

def legacySuccess : Bool :=
  legacyPipelineSuccess (input.selected env) input.pipelineStatus input.failedJobs

def rollbackRequired : Bool :=
  autoRollbackRequired (input.selectedSuccessCount env) input.hasRepairCommits
    (input.legacySuccess env)

/-- `terminal`: the fields of the repair state that follow from the verdict. -/
def terminal (state : PipelineRepairState) : PipelineRepairState :=
  { state with
    phase := .terminal
    latestPipelineId := input.pipelineId
    finalPipelineStatus := input.pipelineStatus
    failedJobNames := (input.failedJobs.map (·.name)).filter (· ≠ "")
    selectedCategories := (input.selected env).map (·.value)
    repairOutcome :=
      if input.legacySuccess env then RepairOutcome.success.value
      else (input.verdict env).outcome.value
    verifiedSelectedSuccessCount := some (input.selectedSuccessCount env)
    autoRollbackRequired := input.rollbackRequired env }

end FinishInput

end MrAgent
