import MrAgent.RepairPlanner

namespace MrAgent

/-!
# The verifier node

`repair_verifier.py`: once the native evidence allows a commit, an independent
model judges the complete Diff, and the node appends one verification that is
bound to the latest plan and its active work item.
-/

/-- `MAX_VERIFIER_DIFF_CHARS`. -/
def maxVerifierDiffChars : Nat := 120000

/-- `VerifierOutput`, an answer that its schema has accepted. -/
structure VerifierOutput where
  verdict : Verdict
  causalAlignment : Bool
  scopeCompliant : Bool
  evidenceSufficient : Bool
  coveredWorkItemIds : List String
  reason : String
  risks : List String := []
  coverageBound : coveredWorkItemIds.length ≤ 20 := by decide
  coverageUnique : coveredWorkItemIds.Nodup := by decide
  reasonBound : lengthIn 1 1000 reason = true := by decide
  risksBound : risks.length ≤ 10 := by decide
deriving DecidableEq

/-- What the structured model call comes to. -/
inductive VerifierReply where
  | failed (errorName : String)
  | returned (model : String) (value : Option VerifierOutput)
      (terminalError validationError : String)
deriving DecidableEq

/-- The keyword arguments of `_verification_event`. -/
structure Judgement where
  verdict : Verdict
  reason : String
  diffDigest : String := ""
  causalAlignment : Bool := false
  scopeCompliant : Bool := false
  evidenceSufficient : Bool := false
  coveredWorkItemIds : List String := []
  risks : List String := []
  model : String := ""
  errorCode : String := ""
deriving DecidableEq

/-- `_verification_event` for a plan and its active item; `none` is a raised error. -/
def verificationEvent
    (plan : RepairPlan)
    (item : RepairWorkItem)
    (now : String)
    (judgement : Judgement) : Option RepairVerification :=
  RepairVerification.modelValidate
    { planId := plan.planId
      lineageId := plan.lineageId
      planVersion := plan.version
      workItemId := item.workItemId
      baselineSha := plan.baselineSha
      diffDigest := judgement.diffDigest
      verdict := judgement.verdict
      causalAlignment := judgement.causalAlignment
      scopeCompliant := judgement.scopeCompliant
      evidenceSufficient := judgement.evidenceSufficient
      coveredWorkItemIds :=
        if judgement.verdict = .block then [item.workItemId] else judgement.coveredWorkItemIds
      reason := boundedText (orElse judgement.reason "Verifier rejected the repair.") 1000
      risks :=
        ((judgement.risks.take 10).filter fun risk => strip risk.toList ≠ []).map
          (boundedText · 500)
      model := judgement.model
      errorCode := judgement.errorCode
      createdAt := now }

/-- Why `_complete_diff` has no text to return. -/
inductive DiffError where
  | overBudget
  | inconsistentTotals
  | pagesMissing
deriving DecidableEq

/-- The message of the raised error. -/
def DiffError.message : DiffError → String
  | .overBudget => "complete Diff exceeds verifier budget"
  | .inconsistentTotals => "inconsistent Diff page totals"
  | .pagesMissing => "complete Diff pages are unavailable"

/-- The error code of the verification that reports it. -/
def DiffError.code : DiffError → String
  | .overBudget => "verifier_diff_over_budget"
  | _ => "verifier_diff_incomplete"

/-- The loop of `_complete_diff` over the inspected pages, the newest line first. -/
def collectPages :
    List (Int × String) → Int → List ToolResult → Except DiffError (List (Int × String) × Int)
  | lineMap, totalLines, [] => .ok (lineMap, totalLines)
  | lineMap, totalLines, page :: rest =>
    if !page.pageReadable || page.startLine < 1 || page.endLine < page.startLine ||
        page.diff.length ≠ page.endLine - page.startLine + 1 then
      collectPages lineMap totalLines rest
    else if totalLines ≠ 0 && totalLines ≠ page.totalLines then .error .inconsistentTotals
    else
      let lines := page.diff.zipIdx.map fun line => (page.startLine + (line.2 : Int), line.1)
      collectPages (lines.reverse ++ lineMap) page.totalLines rest

/-- `_complete_diff`; the text is given by its lines. -/
def completeDiff
    (ledger : ExecutionLedger)
    (baseSha diffDigest : String)
    (lastPatchSequence : Int) : Except DiffError (List String) :=
  let pages := (ledger.toolAttempts.filter fun attempt =>
    attempt.sequence > lastPatchSequence && attempt.name = .inspectRepoDiff &&
      attempt.facts.status = .ok && attempt.facts.baseSha = baseSha &&
      attempt.facts.diffDigest = diffDigest).map (·.facts)
  match collectPages [] 0 pages with
  | .error error => .error error
  | .ok (lineMap, totalLines) =>
    let numbers := (List.range totalLines.toNat).map fun offset => (offset : Int) + 1
    match if totalLines ≤ 0 then none else numbers.mapM (List.lookup · lineMap) with
    | none => .error .pagesMissing
    | some lines =>
      if (lines.map (·.length)).sum + (lines.length - 1) > maxVerifierDiffChars then
        .error .overBudget
      else .ok lines

/-- `canonical_check`. -/
def canonicalCheck (name : String) : String :=
  if name = "unit_test_check" then "test_check" else name

/-- The reported ids that are work items of the plan. -/
def safeCovered (plan : RepairPlan) (value : VerifierOutput) : List String :=
  value.coveredWorkItemIds.filter (· ∈ plan.ids)

/-- Some reported id is no work item of the plan. -/
def unknownCovered (plan : RepairPlan) (value : VerifierOutput) : Bool :=
  value.coveredWorkItemIds.any (· ∉ plan.ids)

/-- Some required check of a covered item was not executed. -/
def missingChecks
    (plan : RepairPlan)
    (evidence : NativeRepairEvidence)
    (value : VerifierOutput) : Bool :=
  let executed := evidence.executedChecks.map canonicalCheck
  plan.workItems.any fun item =>
    item.workItemId ∈ safeCovered plan value &&
      item.requiredChecks.any fun check => canonicalCheck check ∉ executed

/-- `pass_valid`. -/
def passValid
    (plan : RepairPlan)
    (evidence : NativeRepairEvidence)
    (required : List String)
    (value : VerifierOutput) : Bool :=
  value.verdict = .pass && value.causalAlignment && value.scopeCompliant &&
    value.evidenceSufficient && (required.all (· ∈ safeCovered plan value)) &&
    !unknownCovered plan value && !missingChecks plan evidence value

/-- The judgement on an answer of the verifying model. -/
def judgeOutput
    (plan : RepairPlan)
    (evidence : NativeRepairEvidence)
    (required : List String)
    (diffDigest model : String)
    (value : VerifierOutput) : Judgement where
  verdict :=
    if passValid plan evidence required value then .pass
    else if value.verdict = .pass then .replan
    else value.verdict
  reason := value.reason
  diffDigest := diffDigest
  causalAlignment := value.causalAlignment
  scopeCompliant := value.scopeCompliant
  evidenceSufficient := value.evidenceSufficient
  coveredWorkItemIds := safeCovered plan value
  risks := value.risks
  model := model
  errorCode :=
    if passValid plan evidence required value then ""
    else if unknownCovered plan value then "repair_verification_unknown_work_items"
    else if missingChecks plan evidence value then "repair_verification_checks_missing"
    else "repair_verification_rejected"

/-- The judgement on a model call, whatever it comes to. -/
def judgeReply
    (s : AgentState)
    (candidates : List String)
    (plan : RepairPlan)
    (evidence : NativeRepairEvidence)
    (required : List String)
    (diffDigest : String) : VerifierReply → Judgement
  | .failed errorName =>
    { verdict := .block
      reason := "Verifier call failed: " ++ errorName
      diffDigest := diffDigest
      errorCode := "verifier_model_unavailable" }
  | .returned model value terminalError validationError =>
    if model = s.activeModel then
      { verdict := .block
        reason := "Verifier did not use an independent configured model route."
        diffDigest := diffDigest
        model := model
        errorCode := "independent_model_unavailable" }
    else
      match value with
      | none =>
        { verdict := .block
          reason :=
            orElse terminalError
              (orElse validationError "Verifier returned invalid structured output.")
          diffDigest := diffDigest
          model := model
          errorCode :=
            if terminalError = "" then "verifier_protocol_invalid"
            else "verifier_model_unavailable" }
      | some value =>
        if model ∉ candidates then
          { verdict := .block
            reason := "Verifier did not use an independent configured model route."
            diffDigest := diffDigest
            model := model
            errorCode := "independent_model_unavailable" }
        else judgeOutput plan evidence required diffDigest model value

/-- The judgement of `repair_verifier_node` for a plan whose active item is known. -/
def judge
    (env : PlanEnv)
    (modelCandidates : List String)
    (s : AgentState)
    (plan : RepairPlan)
    (reply : VerifierReply) : Judgement :=
  let ledger := buildExecutionLedger s.messages
  let attempts := planScopedAttempts s ledger
  let native := evaluateNativeCommit attempts
  let evidence := buildNativeRepairEvidence attempts
  let candidates := modelCandidates.filter fun model => model ≠ "" && model ≠ s.activeModel
  if !native.allowed then
    { verdict := .block
      reason := native.message
      diffDigest := native.validatedDiffDigest
      errorCode := native.errorCode }
  else if native.validatedBaseSha ≠ plan.baselineSha then
    { verdict := .block
      reason := "Validated worktree baseline does not match the current RepairPlan."
      diffDigest := native.validatedDiffDigest
      errorCode := "repair_baseline_mismatch" }
  else
    match completeDiff ledger native.validatedBaseSha native.validatedDiffDigest
        evidence.lastPatchSequence with
    | .error error =>
      { verdict := .block
        reason := error.message
        diffDigest := native.validatedDiffDigest
        errorCode := error.code }
    | .ok _ =>
      if candidates = [] then
        { verdict := .block
          reason := "No model route independent from the ReAct executor is configured."
          diffDigest := native.validatedDiffDigest
          errorCode := "independent_model_unavailable" }
      else
        judgeReply s candidates plan evidence (requiredVerificationWorkItemIds env s)
          native.validatedDiffDigest reply

/-- The verification that `repair_verifier_node` appends; `none` when it appends nothing. -/
def repairVerifierNode
    (env : PlanEnv)
    (modelCandidates : List String)
    (s : AgentState)
    (now : String)
    (reply : VerifierReply) : Option RepairVerification :=
  match latestRepairPlan s, activeWorkItem env s with
  | some plan, some item =>
    verificationEvent plan item now (judge env modelCandidates s plan reply)
  | _, _ => none

end MrAgent
