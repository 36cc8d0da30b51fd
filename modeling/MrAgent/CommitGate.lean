import MrAgent.ExecutionPolicy
import MrAgent.PlanScheduling

namespace MrAgent

/-!
# The gate before a native commit

The permission to commit is computed by four functions from one append-only
history. When it is given, each of their conditions is met by the current plan,
the current Diff and the latest verification, never by an earlier one.
-/

/-- What is known when a native repair may be committed. -/
structure CommitAdmitted
    (env : PolicyEnv)
    (s : AgentState)
    (plan : RepairPlan)
    (pipeline : ToolResult)
    (native : NativeCommitDecision)
    (verification : RepairVerification) : Prop where
  latestPlan : latestRepairPlan s = some plan
  latestPipeline : latestFailedPipeline s.messages = some pipeline
  samePipeline :
    plan.projectId = s.projectId ∧ plan.mrId = s.mrId ∧
      pipelineIdentity env.toPlanEnv s pipeline =
        ⟨plan.baselineSha, plan.sourcePipelineId, plan.sourceCommitSha, plan.sourceFailureDigest⟩
  evidence :
    native = evaluateNativeCommit (planScopedAttempts s (buildExecutionLedger s.messages))
  nativeAllowed : native.allowed = true
  sameBase : native.validatedBaseSha = plan.baselineSha
  notBlocked : blockedWorkItemIds s plan = []
  notActive : activeWorkItem env.toPlanEnv s = none
  allCompleted : ∀ id ∈ plan.executableIds, id ∈ completedWorkItemIds s plan
  latestVerification : latestRepairVerification s = some verification
  passed :
    verification.verdict = .pass ∧ verification.causalAlignment = true ∧
      verification.scopeCompliant = true ∧ verification.evidenceSufficient = true
  samePlan :
    verification.planId = plan.planId ∧ verification.lineageId = plan.lineageId ∧
      verification.planVersion = plan.version ∧ verification.baselineSha = plan.baselineSha
  sameDiff : verification.diffDigest = native.validatedDiffDigest
  covers : ∀ id ∈ plan.executableIds, id ∈ verification.coveredWorkItemIds
  exactPipeline : ∀ push,
    (successfulPushAttempts (buildExecutionLedger s.messages)).getLast? = some push →
    ∃ validation ∈ (buildExecutionLedger s.messages).pipelines,
      push.sequence < validation.sequence ∧
        validation.result.requestedCommitSha = push.facts.commitSha ∧
        validation.result.matchedCommitSha = push.facts.commitSha ∧
        validation.result.pipelineStatus.terminal = true
  belowLimit :
    (publishedShas (buildExecutionLedger s.messages)).toFinset.card < loadMaxRepairCommits env

variable {plan : RepairPlan} {s : AgentState}

theorem planMatchesLatestPipeline_cases
    {env : PlanEnv}
    (current : planMatchesLatestPipeline env s plan = true) :
    ∃ pipeline,
      latestFailedPipeline s.messages = some pipeline ∧ plan.projectId = s.projectId ∧
        plan.mrId = s.mrId ∧
        pipelineIdentity env s pipeline =
          ⟨plan.baselineSha, plan.sourcePipelineId, plan.sourceCommitSha,
            plan.sourceFailureDigest⟩ := by
  unfold planMatchesLatestPipeline at current
  split at current
  · cases current
  · rename_i pipeline failed
    simp only [Bool.and_eq_true, decide_eq_true_eq] at current
    obtain ⟨⟨⟨⟨⟨project, mr⟩, baseline⟩, id⟩, source⟩, digest⟩ := current
    refine ⟨pipeline, failed, project, mr, ?_⟩
    rw [baseline, id, source, digest]

variable {native : NativeCommitDecision}

theorem verificationCommits_cases
    {verification : RepairVerification}
    (commits : verificationCommits plan native verification = true) :
    verification.passes = true ∧ verification.key = plan.key ∧
      verification.diffDigest = native.validatedDiffDigest ∧
      ∀ id ∈ plan.executableIds, id ∈ verification.coveredWorkItemIds := by
  simp only [verificationCommits, verificationMatchesPlan, Bool.and_eq_true, decide_eq_true_eq,
    List.all_eq_true] at commits
  obtain ⟨⟨⟨⟨⟨⟨⟨-, sameKey⟩, -⟩, -⟩, -⟩, passes⟩, sameDiff⟩, covers⟩ := commits
  exact ⟨passes, sameKey, sameDiff, covers⟩

theorem repairPlanCommitDecision_allowed
    {env : PlanEnv}
    (allowed : (repairPlanCommitDecision env s native).allowed = true) :
    ∃ plan verification,
      latestRepairPlan s = some plan ∧ planMatchesLatestPipeline env s plan = true ∧
        native.allowed = true ∧ native.validatedBaseSha = plan.baselineSha ∧
        blockedWorkItemIds s plan = [] ∧ activeWorkItem env s = none ∧
        latestRepairVerification s = some verification ∧
        verificationCommits plan native verification = true := by
  unfold repairPlanCommitDecision at allowed
  split at allowed
  · cases allowed
  · rename_i plan found
    obtain ⟨latest, current⟩ := Option.filter_eq_some_iff.mp found
    split at allowed
    · cases allowed
    · rename_i nativeAllowed
      split at allowed
      · cases allowed
      · rename_i sameBase
        split at allowed
        · cases allowed
        · rename_i notBlocked
          split at allowed
          · cases allowed
          · rename_i notActive
            split at allowed
            · cases allowed
            · rename_i verified
              simp only [Bool.not_eq_true', Bool.not_eq_false, Option.any_eq_true] at verified
              obtain ⟨verification, newest, commits⟩ := verified
              refine ⟨plan, verification, latest, current, by simpa using nativeAllowed,
                not_not.mp sameBase, not_not.mp notBlocked, ?_, newest, commits⟩
              simpa using notActive

theorem validatePublication_ok
    {env : PolicyEnv}
    {ledger : ExecutionLedger} :
    validatePublication env s ledger = .ok () ↔
      hasUnresolvedUnsafeChanges ledger = false ∧
        (pendingResult ledger).status.unvalidated = false ∧
        (buildRepairSnapshot s.messages).requiresExactPipeline = false ∧
        (buildRepairSnapshot s.messages).publishedAttemptCount < loadMaxRepairCommits env := by
  unfold validatePublication
  dsimp only
  split
  · simp_all
  · split
    · simp_all
    · split
      · simp_all
      · split
        · rename_i full
          simp only [reduceCtorEq, false_iff, not_and, not_lt]
          intros
          exact full
        · simp_all

theorem completed_of_not_active
    {env : PlanEnv}
    (latest : latestRepairPlan s = some plan)
    (current : planMatchesLatestPipeline env s plan = true)
    (notActive : activeWorkItem env s = none)
    {id : String}
    (executable : id ∈ plan.executableIds) :
    id ∈ completedWorkItemIds s plan := by
  unfold activeWorkItem at notActive
  simp only [latest, current, if_true] at notActive
  unfold unfinishedItem at notActive
  rw [List.find?_eq_none] at notActive
  unfold RepairPlan.executableIds at executable
  obtain ⟨item, pending, rfl⟩ := List.mem_map.mp executable
  obtain ⟨member, status⟩ := List.mem_filter.mp pending
  have finished := notActive item member
  rw [decide_eq_true_eq] at status
  simpa [status] using finished

/-- Every condition of the gate holds whenever a native commit is allowed. -/
theorem native_commit_gate
    {env : PolicyEnv}
    {s : AgentState}
    {args : ToolArgs}
    (repairing : s.triggerType = .pipelineFailed)
    (backend : env.nativeBackend = true)
    (allowed : validateToolCall env s .commitAndPush args = .ok ()) :
    ∃ plan pipeline native verification,
      CommitAdmitted env s plan pipeline native verification := by
  have committed : validateCommit env s (buildExecutionLedger s.messages) = .ok () := by
    simpa [validateToolCall, ToolName.allowedInRepair] using allowed
  unfold validateCommit at committed
  simp only [repairing, backend, decide_true, Bool.and_self, if_true] at committed
  split at committed
  · cases committed
  · rename_i accepted
    obtain ⟨-, -, settled, below⟩ := validatePublication_ok.mp committed
    unfold validateNativeCommitPreconditions at accepted
    dsimp only at accepted
    split at accepted
    · rename_i planAllowed
      obtain ⟨plan, verification, latest, current, nativeAllowed, sameBase, notBlocked, notActive,
        newest, commits⟩ := repairPlanCommitDecision_allowed planAllowed
      obtain ⟨pipeline, failed, project, mr, identity⟩ := planMatchesLatestPipeline_cases current
      obtain ⟨passes, sameKey, sameDiff, covers⟩ := verificationCommits_cases commits
      simp only [RepairVerification.passes, Bool.and_eq_true, decide_eq_true_eq] at passes
      simp only [RepairVerification.key, RepairPlan.key, Prod.mk.injEq] at sameKey
      refine ⟨plan, pipeline, _, verification,
        { latestPlan := latest
          latestPipeline := failed
          samePipeline := ⟨project, mr, identity⟩
          evidence := rfl
          nativeAllowed := nativeAllowed
          sameBase := sameBase
          notBlocked := notBlocked
          notActive := notActive
          allCompleted := fun _ => completed_of_not_active latest current notActive
          latestVerification := newest
          passed := ⟨passes.1.1.1, passes.1.1.2, passes.1.2, passes.2⟩
          samePlan := sameKey
          sameDiff := sameDiff
          covers := covers
          exactPipeline := ?_
          belowLimit := publishedAttemptCount_eq s.messages ▸ below }⟩
      intro push last
      obtain ⟨validation, member, terminal⟩ := exists_terminal_pipeline settled last
      simp only [exactPipelines, pipelineMatchesAttempt, List.mem_filter, Bool.and_eq_true,
        decide_eq_true_eq] at member
      obtain ⟨inside, later, ⟨⟨⟨-, requested⟩, matched⟩, -⟩⟩ := member
      exact ⟨validation, inside, later, requested, matched, terminal⟩
    · cases accepted

namespace ThreeItems

/-- The default settings. -/
def policy : PolicyEnv where
  toPlanEnv := env
  setting := fun _ => none
  fingerprint := fun _ diagnostic _ => diagnostic
  failedValidationCounts := fun _ _ => 0
  requiredChecksForPaths := fun _ _ => ["diff_check"]

/-- The state in which all three items have been repaired and verified. -/
def allVerified : AgentState :=
  allAtOnce.foldl (planStep env) (after planning)

end ThreeItems

open ThreeItems in
theorem native_commit_gate_all_verified :
    ∃ plan pipeline native verification,
      CommitAdmitted policy allVerified plan pipeline native verification := by
  have evaluated :
      (validateToolCall policy allVerified .commitAndPush {}).isOk = true := by
    decide +kernel
  have allowed : validateToolCall policy allVerified .commitAndPush {} = .ok () := by
    cases decision : validateToolCall policy allVerified .commitAndPush {} with
    | error reason =>
        rw [decision] at evaluated
        cases evaluated
    | ok accepted =>
        rfl
  have repairing : allVerified.triggerType = .pipelineFailed := by
    decide +kernel
  exact native_commit_gate repairing rfl allowed

end MrAgent
