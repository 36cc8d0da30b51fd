import Mathlib
import MrAgent.ExecutionLedger

namespace MrAgent

/-!
# Native repair evidence

`native_repair_state.py`: the tool attempts of a native repair are reduced to
the patch that is applied, how much of its Diff has been read and what the last
validation found. `evaluateNativeCommit` fails closed on that reduction.
-/

/-- `NativeRepairEvidence`. -/
structure NativeRepairEvidence where
  lastPatchSequence : Int := -1
  lastPatchStatus : ResultStatus := .absent
  lastPatchWorkItemId : String := ""
  baseSha : String := ""
  diffDigest : String := ""
  changedFiles : List String := []
  failedPatchAfterSuccess : Bool := false
  totalLines : Int := 0
  coveredIntervals : List (Int × Int) := []
  diffReviewComplete : Bool := false
  lastInspectSequence : Int := -1
  validationSequence : Int := -1
  validationStatus : ResultStatus := .absent
  validatedDiffDigest : String := ""
  requiredChecks : List String := []
  executedChecks : List String := []
  allPassed : Bool := false
  validationErrorCode : String := ""
deriving DecidableEq

/-- `NativeCommitDecision`; an allowed decision has no error code and no message. -/
structure NativeCommitDecision where
  allowed : Bool
  errorCode : String := ""
  message : String := ""
  validatedDiffDigest : String := ""
  validatedBaseSha : String := ""
  nextStartLine : Option Int := none
deriving DecidableEq

/-- `_Reduction`. -/
structure NativeReduction where
  evidence : NativeRepairEvidence := {}
  diffReviewStale : Bool := false
  validationStale : Bool := false
  missingRequiredChecks : List String := []
  failedRequiredChecks : List String := []
deriving DecidableEq

/-- The order of Python pairs. -/
def intervalLe (first second : Int × Int) : Prop :=
  first.1 < second.1 ∨ (first.1 = second.1 ∧ first.2 ≤ second.2)

instance : DecidableRel intervalLe := fun first second =>
  inferInstanceAs (Decidable (first.1 < second.1 ∨ (first.1 = second.1 ∧ first.2 ≤ second.2)))

/-- The merging loop of `_merge_intervals`, the last merged interval first. -/
def mergeInto : List (Int × Int) → List (Int × Int) → List (Int × Int)
  | merged, [] => merged.reverse
  | [], interval :: rest => mergeInto [interval] rest
  | last :: merged, interval :: rest =>
    if interval.1 > last.2 + 1 then mergeInto (interval :: last :: merged) rest
    else mergeInto ((last.1, max last.2 interval.2) :: merged) rest

/-- `_merge_intervals`. -/
def mergeIntervals (intervals : List (Int × Int)) : List (Int × Int) :=
  mergeInto [] (intervals.insertionSort intervalLe)

/-- The loop of `_next_start_line`. -/
def nextStartLineFrom (expected totalLines : Int) : List (Int × Int) → Option Int
  | [] => if expected ≤ totalLines then some expected else none
  | (start, stop) :: rest =>
    if start > expected then some expected
    else nextStartLineFrom (max expected (stop + 1)) totalLines rest

/-- `_next_start_line`. -/
def nextStartLine (intervals : List (Int × Int)) (totalLines : Int) : Option Int :=
  nextStartLineFrom 1 totalLines intervals

/-- `_successful_patch`. -/
def successfulPatch (result : ToolResult) : Bool :=
  result.status == .changed && result.patchApplied && result.baseSha != "" &&
    result.diffDigest != ""

namespace NativeReduction

/-- A patch tool has answered. -/
def patched (reduction : NativeReduction) (sequence : Nat) (result : ToolResult) :
    NativeReduction :=
  if successfulPatch result then
    { evidence :=
      { lastPatchSequence := sequence
        lastPatchStatus := result.status
        lastPatchWorkItemId := result.workItemId
        baseSha := result.baseSha
        diffDigest := result.diffDigest
        changedFiles := result.changedFiles.filter (· ≠ "") } }
  else if reduction.evidence.diffDigest ≠ "" then
    { reduction with
      evidence := { reduction.evidence with
        lastPatchSequence := sequence
        lastPatchStatus := result.status
        failedPatchAfterSuccess := true } }
  else
    { reduction with
      evidence := { reduction.evidence with
        lastPatchSequence := sequence
        lastPatchStatus := result.status } }

/-- A page of the current Diff has been read. -/
def inspected (reduction : NativeReduction) (sequence : Nat) (result : ToolResult) :
    NativeReduction :=
  let evidence := { reduction.evidence with lastInspectSequence := sequence }
  let sameIdentity := result.baseSha = evidence.baseSha ∧ result.diffDigest = evidence.diffDigest
  let validRange :=
    result.pageReadable ∧ result.totalLines > 0 ∧ 1 ≤ result.startLine ∧ result.startLine ≤ result.endLine ∧
      result.endLine ≤ result.totalLines
  let consistentTotal := evidence.totalLines = 0 ∨ evidence.totalLines = result.totalLines
  if ¬sameIdentity ∨ ¬validRange ∨ ¬consistentTotal then
    { reduction with evidence := evidence, diffReviewStale := true }
  else
    let intervals := mergeIntervals (evidence.coveredIntervals ++ [(result.startLine, result.endLine)])
    { reduction with
      evidence := { evidence with
        totalLines := result.totalLines
        coveredIntervals := intervals
        diffReviewComplete := (nextStartLine intervals result.totalLines).isNone }
      diffReviewStale := false }

/-- The value a check name ends with in the dictionary of passed checks. -/
def checkPassed (executed : List ExecutedCheck) (check : String) : Bool :=
  match (executed.filter (·.name = check)).getLast? with
  | some last => last.passed
  | none => false

/-- A local validation has answered. -/
def validated (reduction : NativeReduction) (sequence : Nat) (result : ToolResult) :
    NativeReduction :=
  let required := (result.requiredChecks.filter (· ≠ "")).eraseDups
  let executed := result.executedChecks.filter (·.name ≠ "")
  let executedNames := (executed.map (·.name)).eraseDups
  let evidence := { reduction.evidence with
    validationSequence := sequence
    validationStatus := result.status
    validatedDiffDigest := result.validatedDiffDigest
    requiredChecks := required
    executedChecks := executedNames
    allPassed := result.allPassed
    validationErrorCode := result.errorCode }
  { reduction with
    evidence := evidence
    validationStale :=
      !evidence.diffReviewComplete ||
        !(result.baseSha == evidence.baseSha && result.validatedDiffDigest == evidence.diffDigest)
    missingRequiredChecks := required.filter (· ∉ executedNames)
    failedRequiredChecks :=
      required.filter fun check => check ∈ executedNames && !checkPassed executed check }

/-- One round of the loop of `_reduce_native_repair_evidence`. -/
def reduce (reduction : NativeReduction) (attempt : ToolAttempt) : NativeReduction :=
  let result := attempt.facts
  match attempt.name with
  | .discardWorkspace => if result.status = .success then {} else reduction
  | .applyRepoPatch | .applyFormatReport => reduction.patched attempt.sequence result
  | .inspectRepoDiff =>
    if reduction.evidence.diffDigest ≠ "" ∧ result.status = .ok then
      reduction.inspected attempt.sequence result
    else reduction
  | .runRepoValidation =>
    if reduction.evidence.diffDigest ≠ "" then reduction.validated attempt.sequence result
    else reduction
  | _ => reduction

end NativeReduction

/-- `_reduce_native_repair_evidence`. -/
def reduceNativeRepairEvidence (attempts : List ToolAttempt) : NativeReduction :=
  attempts.foldl NativeReduction.reduce {}

/-- `build_native_repair_evidence`. -/
def buildNativeRepairEvidence (attempts : List ToolAttempt) : NativeRepairEvidence :=
  (reduceNativeRepairEvidence attempts).evidence

/-- The decision that `evaluate_native_commit` takes on a reduction. -/
def NativeReduction.decision (reduction : NativeReduction) : NativeCommitDecision :=
  let evidence := reduction.evidence
  if evidence.diffDigest = "" then
    { allowed := false
      errorCode := "native_patch_missing"
      message := "请先调用 apply_repo_patch_tool 成功应用补丁并取得 Diff 身份。" }
  else if evidence.failedPatchAfterSuccess then
    { allowed := false
      errorCode := "native_patch_failed_after_success"
      message := "最后一次 apply_repo_patch_tool 失败；请重新成功应用补丁，或丢弃工作区修改。" }
  else if reduction.diffReviewStale then
    { allowed := false
      errorCode := "native_diff_review_stale"
      message := "inspect_repo_diff_tool 返回的基线、Diff 哈希、总行数或页范围与当前补丁不一致；请重新检查。"
      nextStartLine := nextStartLine evidence.coveredIntervals evidence.totalLines }
  else if !evidence.diffReviewComplete then
    let nextLine :=
      match nextStartLine evidence.coveredIntervals evidence.totalLines with
      | some line => if line = 0 then 1 else line
      | none => 1
    { allowed := false
      errorCode := "native_diff_review_incomplete"
      message := s!"Diff 尚未完整检查；请调用 inspect_repo_diff_tool(start_line={nextLine})。"
      nextStartLine := some nextLine }
  else if evidence.validationSequence < 0 then
    { allowed := false
      errorCode := "native_validation_missing"
      message := "请在完整检查 Diff 后调用 run_repo_validation_tool。" }
  else if evidence.validationErrorCode = "validation_profile_missing" then
    { allowed := false
      errorCode := "native_validation_profile_missing"
      message := "项目缺少必需的验证 profile，不能以较弱检查替代真实测试。" }
  else if reduction.validationStale then
    { allowed := false
      errorCode := "native_validation_stale"
      message := "验证早于完整 Diff 审阅，或验证的基线/Diff 哈希与当前补丁不一致；请重新验证。" }
  else if reduction.missingRequiredChecks ≠ [] then
    { allowed := false
      errorCode := "native_validation_checks_missing"
      message :=
        "验证结果缺少必需检查：" ++ ", ".intercalate reduction.missingRequiredChecks ++
          "；请重新调用 run_repo_validation_tool。" }
  else if evidence.validationStatus ≠ .ok || !evidence.allPassed ||
      reduction.failedRequiredChecks ≠ [] then
    { allowed := false
      errorCode := "native_validation_failed"
      message := "至少一项必需验证未通过，请修复失败后重新检查并验证。" }
  else
    { allowed := true
      validatedDiffDigest := evidence.validatedDiffDigest
      validatedBaseSha := evidence.baseSha }

/-- `evaluate_native_commit`. -/
def evaluateNativeCommit (attempts : List ToolAttempt) : NativeCommitDecision :=
  (reduceNativeRepairEvidence attempts).decision

end MrAgent
