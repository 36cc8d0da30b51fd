import MrAgent.CardVerdict
import MrAgent.RepairDetails

namespace MrAgent

/-!
# Inputs of final repair reports

A report task stores what it was asked to explain as a JSON document and knows
its own input by the digest of that document. `build_final_report_input` builds
the input from the repair's records; `from_dict` reads a document and cleans
every text again. A document stands for its canonical JSON text.
-/

/-- `FinalRepairDiff`. -/
structure FinalRepairDiff where
  path : String
  changeType : String
  additions : Nat
  deletions : Nat
  patch : String
  truncated : Bool := false
  omittedLines : Nat := 0
deriving DecidableEq

/-- The members that an input and its document share. -/
structure ReportMembers where
  repairTaskId : String
  projectId : String
  mrIid : Int
  prUrl : String
  sourcePipelineId : Int
  sourceSha : String
  baseSha : String
  finalSha : String
  finalPipelineId : Int
  finalPipelineStatus : String
  finalCoverage : Option Rat
  selectedCategories : List String
  failedJobs : List String
  causalLines : List String
  diffs : List FinalRepairDiff
deriving DecidableEq

/-- The fields of `FinalRepairReportInput`. -/
structure ReportFields extends ReportMembers where
  finalCoverageSource : String := ""
  finalCoverageStatus : String := ""
deriving DecidableEq

/-- The decoded JSON; the coverage texts may be missing. -/
structure ReportDocument extends ReportMembers where
  schemaVersion : Int
  finalCoverageSource : Option String
  finalCoverageStatus : Option String
deriving DecidableEq

/-- `_SHA_RE`. -/
def isReportSha (value : String) : Bool :=
  7 ≤ value.toList.length && value.toList.length ≤ 64 &&
    value.toList.all fun c =>
      ('0' ≤ c && c ≤ '9') || ('a' ≤ c && c ≤ 'f') || ('A' ≤ c && c ≤ 'F')

/-- The error that `__post_init__` raises. -/
def ReportFields.problem (fields : ReportFields) : Option String :=
  if fields.repairTaskId = "" || fields.projectId = "" || fields.mrIid ≤ 0 then
    some "repair report identity is incomplete"
  else if [fields.sourceSha, fields.baseSha, fields.finalSha].any
      fun value => value ≠ "" && !isReportSha value then
    some "repair report contains an invalid SHA"
  else if ¬(fields.diffs.map (·.path)).Nodup then
    some "repair report diff paths must be unique"
  else none

/-- `FinalRepairReportInput`: only fields without a problem make one. -/
structure FinalRepairReportInput extends ReportFields where
  accepted : toReportFields.problem = none
deriving DecidableEq

namespace FinalRepairReportInput

/-- The constructor. -/
def make (fields : ReportFields) : Except String FinalRepairReportInput :=
  match accepted : fields.problem with
  | none => .ok { toReportFields := fields, accepted := accepted }
  | some message => .error message

/-- `to_dict`. -/
def toDict (value : FinalRepairReportInput) : ReportDocument where
  toReportMembers := value.toReportMembers
  schemaVersion := 1
  finalCoverageSource := nonemptyText value.finalCoverageSource
  finalCoverageStatus := nonemptyText value.finalCoverageStatus

end FinalRepairReportInput

namespace RepairTextEnv

variable (env : RepairTextEnv)

/-- The texts that `_unique_text` of the report keeps. -/
def keptClean (limit : Nat) (value : String) : Option String :=
  nonemptyText (env.cleanText value limit)

/-- `_unique_text` of the report. -/
def uniqueClean (limit count : Nat) (values : List String) : List String :=
  CappedList.gather (env.keptClean limit) count [] values

/-- `FinalRepairDiff.from_dict`. -/
def readFinalDiff (diff : FinalRepairDiff) : Except String FinalRepairDiff :=
  match env.safePath diff.path with
  | none => .error "unsafe final diff path"
  | some path =>
    .ok { diff with path := path, changeType := oneOf fileChangeTypes "modified" diff.changeType }

/-- The texts of `FinalRepairReportInput.from_dict`. -/
def readReport (value : ReportDocument) (diffs : List FinalRepairDiff) : ReportFields where
  repairTaskId := env.cleanText value.repairTaskId 128
  projectId := env.cleanText value.projectId 300
  mrIid := value.mrIid
  prUrl := env.cleanText value.prUrl 1000
  sourcePipelineId := max 0 value.sourcePipelineId
  sourceSha := env.cleanText value.sourceSha 64
  baseSha := env.cleanText value.baseSha 64
  finalSha := env.cleanText value.finalSha 64
  finalPipelineId := max 0 value.finalPipelineId
  finalPipelineStatus := env.cleanText value.finalPipelineStatus 32
  finalCoverage := value.finalCoverage
  selectedCategories := env.uniqueClean 32 8 value.selectedCategories
  failedJobs := env.uniqueClean 120 40 value.failedJobs
  causalLines := env.uniqueClean 500 60 value.causalLines
  diffs := diffs
  finalCoverageSource := env.cleanText (value.finalCoverageSource.getD "") 32
  finalCoverageStatus := env.cleanText (value.finalCoverageStatus.getD "") 64

/-- `FinalRepairReportInput.from_dict`. -/
def reportFromDict (value : ReportDocument) : Except String FinalRepairReportInput :=
  if value.schemaVersion ≠ 1 then .error "unsupported final repair report input schema"
  else
    match value.diffs.mapM env.readFinalDiff with
    | .error message => .error message
    | .ok diffs => FinalRepairReportInput.make (env.readReport value diffs)

end RepairTextEnv

/-! ## The comparison of the repair's commits -/

/-- One entry of `diffs` of a GitLab comparison. -/
structure CompareDiff where
  newPath : String
  oldPath : String
  newFile : Bool := false
  deletedFile : Bool := false
  renamedFile : Bool := false
  diff : String
deriving DecidableEq

/-- A GitLab comparison; of the commits only the name of the last one is read. -/
structure RepositoryCompare where
  diffs : List CompareDiff
  lastCommit : String
deriving DecidableEq

/-- The settings of the report. -/
structure ReportSettings where
  maxFiles : Nat
  maxHunks : Nat
  maxLines : Nat
  maxChars : Nat
  maxTotalChars : Nat
  maxCharsPositive : 0 < maxChars

/-- `_change_type`. -/
def CompareDiff.changeType (value : CompareDiff) : String :=
  if value.newFile then "added"
  else if value.deletedFile then "deleted"
  else if value.renamedFile then "renamed"
  else "modified"

/-- The path that a diff is read with. -/
def CompareDiff.path (value : CompareDiff) : String :=
  textOr value.newPath value.oldPath

/-- The limits of one patch out of some. -/
def ReportSettings.patchLimits (settings : ReportSettings) (files : Nat) : PatchLimits where
  maxHunks := settings.maxHunks
  maxLines := settings.maxLines
  maxChars := settings.maxChars
  maxPatchChars := max 512 (settings.maxTotalChars / max 1 files)
  maxCharsPositive := settings.maxCharsPositive

/-- The document of one diff. -/
def CompareDiff.bounded (limits : PatchLimits) (value : CompareDiff) : FinalRepairDiff :=
  let patch := boundedPatch limits value.diff
  { path := value.path
    changeType := value.changeType
    additions := patch.additions
    deletions := patch.deletions
    patch := String.ofList patch.text
    truncated := patch.truncated
    omittedLines := patch.omitted }

/-- `parse_gitlab_compare_diffs`. -/
def parseGitlabCompareDiffs
    (env : RepairTextEnv)
    (settings : ReportSettings)
    (values : List CompareDiff) : Except String (List FinalRepairDiff) :=
  if settings.maxFiles < values.length then
    .error ("final diff contains " ++ toString values.length ++ " files; limit is " ++
      toString settings.maxFiles)
  else
    match values.mapM fun value =>
        env.readFinalDiff (value.bounded (settings.patchLimits values.length)) with
    | .error message => .error message
    | .ok output => .ok (output.mergeSort fun first second => first.path ≤ second.path)

/-! ## The builder -/

/-- What the builder reads of a repair's durable state. -/
structure ReportedRepair where
  latestPipelineId : Int
  latestPipelineSha : String
  finalPipelineStatus : String
  finalCoverage : Option Rat
  finalCoverageSource : String
  finalCoverageStatus : String
  selectedCategories : List String
  failedJobNames : List String
  failureExplanations : List FailureExplanation
  sourceFailureExplanations : List FailureExplanation
  repairActions : List DetailedAction
deriving DecidableEq

/-- What the builder reads of the repair's task and of its card. -/
structure ReportedTask where
  taskId : TaskId
  mr : Option MrKey
  prUrl : String
  sourcePipelineId : Int
  sourcePipelineSha : String
  /-- The pipeline of the card, if there is one. -/
  binding : Option (Int × String)
  manifest : Option RepairCommitManifest
  repairState : ReportedRepair
deriving DecidableEq

/-- `repair_source_failure_explanations`. -/
def ReportedRepair.explanations (state : ReportedRepair) : List FailureExplanation :=
  if state.sourceFailureExplanations = [] then state.failureExplanations
  else state.sourceFailureExplanations

/-- `tuple(dict.fromkeys(text for text in texts if text))`. -/
def distinctTexts (texts : List String) : List String :=
  (texts.filter (· ≠ "")).eraseDups

/-- `source_job_names or repair_state.failed_job_names`. -/
def ReportedRepair.failedJobs (state : ReportedRepair) : List String :=
  let names := distinctTexts (state.explanations.map (·.jobName))
  if names = [] then state.failedJobNames else names

/-- `causal_lines`. -/
def ReportedRepair.causalLines (state : ReportedRepair) : List String :=
  (distinctTexts
    (state.explanations.flatMap (fun record => [record.confirmedReason, record.possibleReason]) ++
      state.repairActions.flatMap fun action => [action.rootCause, action.evidence])).take 60

/-- The pipeline that failed first. -/
def ReportedTask.sourcePipeline (task : ReportedTask) : Int × String :=
  match task.binding with
  | none => (task.sourcePipelineId, task.sourcePipelineSha)
  | some card =>
    (if task.sourcePipelineId = 0 then card.1 else task.sourcePipelineId,
      textOr task.sourcePipelineSha card.2)

/-- The arguments of `FinalRepairReportInput`. -/
def reportFields
    (task : ReportedTask)
    (manifest : RepairCommitManifest)
    (diffs : List FinalRepairDiff) : ReportFields where
  repairTaskId := task.taskId.text
  projectId := manifest.projectId
  mrIid := manifest.mrIid
  prUrl := task.prUrl
  sourcePipelineId := task.sourcePipeline.1
  sourceSha := task.sourcePipeline.2
  baseSha := manifest.baseCommitSha
  finalSha := manifest.finalRepairSha
  finalPipelineId := task.repairState.latestPipelineId
  finalPipelineStatus := task.repairState.finalPipelineStatus
  finalCoverage := task.repairState.finalCoverage
  selectedCategories := task.repairState.selectedCategories
  failedJobs := task.repairState.failedJobs
  causalLines := task.repairState.causalLines
  diffs := diffs
  finalCoverageSource := task.repairState.finalCoverageSource
  finalCoverageStatus := task.repairState.finalCoverageStatus

/-- The outcomes of the builder; a report state has its failure reason. -/
inductive ReportBuild where
  | input (value : FinalRepairReportInput)
  | state (status : RepairReportStatus) (failureReason : String)
  | raised (message : String)
deriving DecidableEq

/-- `build_final_report_input`. -/
def buildFinalReportInput
    (env : RepairTextEnv)
    (settings : ReportSettings)
    (task : ReportedTask)
    (comparison : RepositoryCompare) : ReportBuild :=
  match task.manifest with
  | none => .state .notApplicable "本次修复未产生代码提交。"
  | some manifest =>
    if manifest.entries = [] then .state .notApplicable "本次修复未产生代码提交。"
    else
      match manifest.validateStatic with
      | .error failure => .state .fallback ("无法确认修复提交边界：" ++ failure.2)
      | .ok () =>
        if manifest.repairTaskId ≠ task.taskId ∨
            manifest.projectId ≠ (task.mr.map (·.projectId)).getD "" then
          .state .fallback "无法确认修复提交边界：任务身份不一致"
        else if manifest.finalRepairSha ≠ task.repairState.latestPipelineSha then
          .state .fallback "无法确认修复提交边界：最终流水线 SHA 与修复提交不一致"
        else if comparison.lastCommit ≠ "" ∧ comparison.lastCommit ≠ manifest.finalRepairSha then
          .state .fallback "无法确认修复提交边界：GitLab Compare 终点不一致"
        else
          match parseGitlabCompareDiffs env settings comparison.diffs with
          | .error message => .state .fallback ("最终代码差异无法安全展示：" ++ message)
          | .ok diffs =>
            if diffs = [] then
              .state .fallback "修复提交存在，但 GitLab Compare 未返回可展示差异"
            else
              match FinalRepairReportInput.make (reportFields task manifest diffs) with
              | .ok value => .input value
              | .error message => .raised message

end MrAgent
