import MrAgent.CommitGate
import MrAgent.PipelineActions

namespace MrAgent

/-!
# Mandatory actions and the policy that reviews the model

`agent_node` issues a mandatory action without asking `validate_tool_call` or
`validate_finish`: only the calls of the model are reviewed. What the review
would say about a forced call is worked out here, one tool after the other.
-/

/-! ## The order of the ledger -/

/-- The attempts of a scan, and that they all come before the next message. -/
structure ScanOrdered (scan : LedgerScan) (sequence : Nat) : Prop where
  ordered : scan.ledger.toolAttempts.Pairwise (·.sequence < ·.sequence)
  bounded : ∀ attempt ∈ scan.ledger.toolAttempts, attempt.sequence < sequence

namespace ScanOrdered

variable {sequence : Nat} {scan : LedgerScan}

theorem later
    (inv : ScanOrdered scan sequence) :
    ScanOrdered scan (sequence + 1) :=
  ⟨inv.ordered, fun attempt member => Nat.lt_succ_of_lt (inv.bounded attempt member)⟩

theorem congr
    {scan other : LedgerScan}
    (inv : ScanOrdered scan sequence)
    (same : other.ledger.toolAttempts = scan.ledger.toolAttempts) :
    ScanOrdered other sequence :=
  ⟨same ▸ inv.ordered, fun attempt member => inv.bounded attempt (same ▸ member)⟩

theorem attempted
    (attempt : ToolAttempt)
    (inv : ScanOrdered scan attempt.sequence) :
    ScanOrdered (ExecutionLedger.attempted scan attempt) (attempt.sequence + 1) := by
  unfold ExecutionLedger.attempted
  constructor
  · apply List.pairwise_append.mpr
    refine ⟨inv.ordered, List.pairwise_singleton _ _, ?_⟩
    intro earlier member last same
    rw [List.mem_singleton.mp same]
    exact inv.bounded earlier member
  · intro other member
    rcases List.mem_append.mp member with earlier | last
    · exact Nat.lt_succ_of_lt (inv.bounded other earlier)
    · rw [List.mem_singleton.mp last]
      exact Nat.lt_succ_self _

end ScanOrdered

theorem recordResult_attempts
    (scan : LedgerScan)
    (name : ToolName)
    (result : ToolResult)
    (sequence : Nat) :
    (ExecutionLedger.recordResult scan name result sequence).ledger.toolAttempts =
      scan.ledger.toolAttempts := by
  unfold ExecutionLedger.recordResult ExecutionLedger.recordPush
  cases name <;> dsimp only
  · split <;> rfl
  · split <;> rfl

theorem ScanOrdered.message
    {scan : LedgerScan}
    {sequence : Nat}
    (inv : ScanOrdered scan sequence)
    (message : Message) :
    ScanOrdered (ExecutionLedger.scanMessage scan message sequence) (sequence + 1) := by
  unfold ExecutionLedger.scanMessage
  dsimp only
  split
  · exact inv.later.congr rfl
  · split
    · exact ScanOrdered.attempted ⟨_, _, none, sequence, _⟩ (inv.congr rfl)
    · refine ScanOrdered.congr ?_ (recordResult_attempts _ _ _ _)
      exact ScanOrdered.attempted ⟨_, _, some _, sequence, ""⟩ (inv.congr rfl)

theorem toolAttempts_ordered (messages : List Message) :
    (buildExecutionLedger messages).toolAttempts.Pairwise (·.sequence < ·.sequence) := by
  have scanned : ∀ (rest : List Message) (scan : LedgerScan) (sequence : Nat),
      ScanOrdered scan sequence →
      (ExecutionLedger.scanFrom scan sequence rest).ledger.toolAttempts.Pairwise
        (·.sequence < ·.sequence) := by
    intro rest
    induction rest with
    | nil =>
        intro scan sequence inv
        exact inv.ordered
    | cons message rest ih =>
        intro scan sequence inv
        exact ih _ _ (inv.message message)
  exact scanned messages {} 0 ⟨List.Pairwise.nil, fun _ member => by cases member⟩

theorem filter_append_filter_of_ordered
    {attempts : List ToolAttempt}
    (ordered : attempts.Pairwise (·.sequence < ·.sequence))
    (bound : Nat) :
    attempts =
      attempts.filter (fun attempt => !decide (attempt.sequence > bound)) ++
        attempts.filter (fun attempt => decide (attempt.sequence > bound)) := by
  induction attempts with
  | nil =>
      rfl
  | cons attempt rest ih =>
      obtain ⟨first, others⟩ := List.pairwise_cons.mp ordered
      by_cases late : attempt.sequence > bound
      · have allLate : ∀ other ∈ rest, other.sequence > bound := by
          intro other member
          have := first other member
          omega
        have noneEarly : rest.filter (fun other => !decide (other.sequence > bound)) = [] := by
          apply List.filter_eq_nil_iff.mpr
          intro other member
          simpa using allLate other member
        have everyLate : rest.filter (fun other => decide (other.sequence > bound)) = rest := by
          apply List.filter_eq_self.mpr
          intro other member
          simpa using allLate other member
        simp only [List.filter_cons, late, decide_true, Bool.not_true, Bool.false_eq_true,
          if_false, if_true, noneEarly, everyLate, List.nil_append]
      · simp only [List.filter_cons, late, decide_false, Bool.not_false, Bool.false_eq_true,
          if_false, if_true, List.cons_append]
        rw [← ih others]

/-! ## Native evidence that does not depend on what came before -/

namespace NativeReduction

theorem reduce_agrees
    {first second : NativeReduction}
    (agrees : first = second ∨ second.evidence.diffDigest = "")
    (attempt : ToolAttempt) :
    first.reduce attempt = second.reduce attempt ∨
      (second.reduce attempt).evidence.diffDigest = "" := by
  rcases agrees with rfl | empty
  · exact Or.inl rfl
  · have patch : ∀ (sequence : Nat) (result : ToolResult),
        first.patched sequence result = second.patched sequence result ∨
          (second.patched sequence result).evidence.diffDigest = "" := by
      intro sequence result
      unfold patched
      by_cases successful : successfulPatch result
      · left
        simp only [successful, if_true]
      · right
        simp only [successful, empty, ne_eq, not_true_eq_false, if_false, Bool.false_eq_true]
    unfold reduce
    dsimp only
    split
    · split
      · exact Or.inl rfl
      · exact Or.inr empty
    · exact patch _ _
    · exact patch _ _
    · right
      simp only [empty, ne_eq, not_true_eq_false, false_and, if_false]
    · right
      simp only [empty, ne_eq, not_true_eq_false, if_false]
    · exact Or.inr empty

theorem foldl_reduce_agrees
    (attempts : List ToolAttempt)
    (first second : NativeReduction)
    (agrees : first = second ∨ second.evidence.diffDigest = "") :
    attempts.foldl reduce first = attempts.foldl reduce second ∨
      (attempts.foldl reduce second).evidence.diffDigest = "" := by
  induction attempts generalizing first second with
  | nil =>
      exact agrees
  | cons attempt rest ih =>
      exact ih _ _ (reduce_agrees agrees attempt)

end NativeReduction

theorem evaluateNativeCommit_append
    {earlier later : List ToolAttempt}
    (allowed : (evaluateNativeCommit later).allowed = true) :
    evaluateNativeCommit (earlier ++ later) = evaluateNativeCommit later := by
  have agrees :=
    NativeReduction.foldl_reduce_agrees later (earlier.foldl NativeReduction.reduce {}) {}
      (Or.inr rfl)
  unfold evaluateNativeCommit reduceNativeRepairEvidence at allowed ⊢
  rw [List.foldl_append]
  rcases agrees with same | empty
  · rw [same]
  · unfold NativeReduction.decision at allowed
    simp only [empty, if_true] at allowed
    cases allowed

/-! ## What the review asks of a forced call -/

/-- The review of `agent_node` lets a call pass. -/
def ReviewAccepts (env : PolicyEnv) (s : AgentState) (call : MandatoryToolCall) : Prop :=
  validateToolCall env s call.name call.arguments = .ok () ∧
    (call.name = .finish → validateFinish env s call.arguments = .ok ())

/-- A work item is settled: exhausted, blocked outside, failed after a repair, or attempted. -/
def ItemSettled
    (env : PolicyEnv)
    (s : AgentState)
    (ledger : ExecutionLedger)
    (pipeline : SequencedResult)
    (item : PipelineWorkItem) : Prop :=
  let first := firstObservation ledger (·.workItems.isSome) pipeline.result
  (item.rootCauseId ≠ "" ∧
      ∃ progress, progressOf env ledger item.rootCauseId = some progress ∧
        progress.state = .repeatExhausted) ∨
    hasValidatedDependencyBlocker item ledger.toolAttempts first = true ∨
    hasVerifiedFailedRepair env s item ledger pipeline.sequence = true ∨
    validateWorkItem env item ledger.toolAttempts first = .ok ()

/-- The last failed Pipeline with work items has only settled ones. -/
def FailureProven (env : PolicyEnv) (s : AgentState) : Prop :=
  ∃ pipeline,
    ((buildExecutionLedger s.messages).pipelines.reverse.find? fun pipeline =>
      pipeline.result.pipelineStatus = .failed && pipeline.result.workItems.isSome) =
        some pipeline ∧
      ∀ item ∈ canonicalWorkItems (pipeline.result.workItems.getD []),
        ItemSettled env s (buildExecutionLedger s.messages) pipeline item

/-- The Pipeline of the last published SHA succeeded, and names its validation Pipeline. -/
def SuccessProven (s : AgentState) : Prop :=
  ∃ pipeline,
    (buildRepairSnapshot s.messages).latestExactPipeline = some pipeline ∧
      pipeline.result.pipelineStatus = .success ∧
      (pipeline.result.rootPipelineId.isSome → ∃ id ≠ 0, pipeline.result.validationPipelineId = some id)

/-- The last saved result of the Pipeline the agent was started for is not final. -/
def FetchOpen (s : AgentState) : Prop :=
  ∀ saved,
    ((buildExecutionLedger s.messages).pipelines.reverse.find? fun pipeline =>
      pipelineIdentityMatches pipeline.result s.pipelineId s.commitSha) = some saved →
    fetchNonterminal saved.result = true

/-- Nothing unsafe or unvalidated is pending in the workspace. -/
def WorkspaceSound (s : AgentState) : Prop :=
  hasUnresolvedUnsafeChanges (buildExecutionLedger s.messages) = false ∧
    (pendingResult (buildExecutionLedger s.messages)).status.unvalidated = false

/-- What a call of the code generator needs for its operation. -/
def GenerateTimely (s : AgentState) (args : ToolArgs) : Prop :=
  match args.operation with
  | .investigate =>
    ¬(hasPrecisePipelineEvidence (buildExecutionLedger s.messages) args = true ∧
      hasUsableInvestigationAttempt (buildExecutionLedger s.messages) args = true)
  | .repair => hasInvestigationEvidence (buildExecutionLedger s.messages) args = true
  | _ => True

/-- The condition under which the review would accept a forced call. -/
def MandateAccepted (env : PolicyEnv) (s : AgentState) (call : MandatoryToolCall) : Prop :=
  match call.name with
  | .fetchPipelineLogs => FetchOpen s
  | .inspectRepoDiff | .runRepoValidation => ∃ item, activeWorkItem env.toPlanEnv s = some item
  | .commitAndPush => WorkspaceSound s
  | .discardWorkspace =>
    ∀ change,
      latestUnresolvedWorkspaceChange (buildExecutionLedger s.messages) = some change →
      validCandidate change = false
  | .generateCode =>
    GenerateTimely s call.arguments ∧ evaluateHermesBudget env s call.arguments = .ok ()
  | .finish =>
    if call.arguments.success then SuccessProven s
    else (∀ phrase ∈ openPhrases, mentions call.arguments.summary phrase = false) ∧
      FailureProven env s
  | _ => True

/-! ## The answer of the review, tool by tool -/

variable {ledger : ExecutionLedger} {pipeline : SequencedResult} {env : PolicyEnv}
variable {s : AgentState}

variable {item : PipelineWorkItem}

theorem unmetReason_eq_none :
    unmetReason env s ledger pipeline
        (firstObservation ledger (·.workItems.isSome) pipeline.result) item = none ↔
      ItemSettled env s ledger pipeline item := by
  unfold unmetReason ItemSettled
  dsimp only
  split
  · rename_i exhausted
    simp only [ne_eq, Bool.and_eq_true, decide_eq_true_eq, Option.any_eq_true] at exhausted
    simp only [true_iff]
    exact Or.inl exhausted
  · rename_i unexhausted
    simp only [ne_eq, Bool.and_eq_true, decide_eq_true_eq, Option.any_eq_true] at unexhausted
    split
    · rename_i blocked
      simp [blocked]
    · rename_i unblocked
      split
      · rename_i failed
        simp [failed]
      · rename_i unfailed
        split
        · rename_i valid
          simp [valid]
        · rename_i reason invalid
          simp only [reduceCtorEq, false_iff, invalid]
          rintro (exhausted | blocked | failed | valid)
          · exact unexhausted exhausted
          · exact unblocked blocked
          · exact unfailed failed
          · cases valid

variable {args : ToolArgs}

theorem validateFailedFinish_ok :
    validateFailedFinish env s args = .ok () ↔
      (∀ phrase ∈ openPhrases, mentions args.summary phrase = false) ∧ FailureProven env s := by
  unfold validateFailedFinish FailureProven
  split
  · rename_i unfinished
    obtain ⟨phrase, member, mentioned⟩ := List.any_eq_true.mp unfinished
    simp only [reduceCtorEq, false_iff, not_and]
    intro closed
    rw [closed phrase member] at mentioned
    cases mentioned
  · rename_i closed
    have noPhrase : ∀ phrase ∈ openPhrases, mentions args.summary phrase = false := by
      simpa using closed
    rw [and_iff_right noPhrase]
    dsimp only
    split
    · rename_i missing
      simp [missing]
    · rename_i pipeline found
      simp only [found, Option.some.injEq, exists_eq_left']
      split
      · rename_i unmet
        simp only [reduceCtorEq, false_iff]
        intro settled
        apply unmet
        apply List.filterMap_eq_nil_iff.mpr
        intro item member
        exact unmetReason_eq_none.mpr (settled item member)
      · rename_i met
        simp only [true_iff]
        intro item member
        exact unmetReason_eq_none.mp (List.filterMap_eq_nil_iff.mp (not_not.mp met) item member)

variable {snapshot : RepairCoordinatorSnapshot}

theorem validateSuccessfulFinish_ok
    (published : snapshot.latestPushedSha ≠ "")
    (exact_ : snapshot.latestExactPipeline = some pipeline)
    (succeeded : pipeline.result.status = .success)
    (clear : pipeline.result.failedJobs = []) :
    validateSuccessfulFinish snapshot = .ok () ↔
      pipeline.result.pipelineStatus = .success ∧
        (pipeline.result.rootPipelineId.isSome →
          ∃ id ≠ 0, pipeline.result.validationPipelineId = some id) := by
  unfold validateSuccessfulFinish
  simp only [published, if_false, exact_, succeeded, clear]
  by_cases passed : pipeline.result.pipelineStatus = .success
  · cases rooted : pipeline.result.rootPipelineId with
    | none =>
        simp [passed]
    | some root =>
        cases validated : pipeline.result.validationPipelineId with
        | none =>
            simp [passed]
        | some id =>
            by_cases zero : id = 0 <;> simp [passed, zero]
  · simp [passed]

theorem validateSuccessfulFinish_error
    (unproven : ∀ pipeline,
      snapshot.latestExactPipeline = some pipeline → pipeline.result.pipelineStatus ≠ .success) :
    validateSuccessfulFinish snapshot ≠ .ok () := by
  unfold validateSuccessfulFinish
  dsimp only
  split
  · exact nofun
  · split
    · exact nofun
    · rename_i pipeline found
      simp [unproven pipeline found]

theorem repeatedPipelineFetch_ok
    (sameId : args.pipelineId = s.pipelineId)
    (sameSha : args.commitSha = s.commitSha) :
    repeatedPipelineFetch s args = .ok () ↔ FetchOpen s := by
  have number : orNumber args.pipelineId s.pipelineId = s.pipelineId := by
    rw [sameId, orNumber, ite_self]
  have sha : orElse args.commitSha s.commitSha = s.commitSha := by
    rw [sameSha, orElse, ite_self]
  unfold repeatedPipelineFetch FetchOpen
  rw [number, sha]
  dsimp only
  split
  · rename_i missing
    simp [missing]
  · rename_i saved found
    simp only [found, Option.some.injEq, forall_eq']
    split
    · rename_i nonterminal
      simp [nonterminal]
    · rename_i terminal
      simp [terminal]

theorem validateDiscard_ok :
    validateDiscard ledger = .ok () ↔
      ∀ change,
        latestUnresolvedWorkspaceChange ledger = some change → validCandidate change = false := by
  unfold validateDiscard
  cases latestUnresolvedWorkspaceChange ledger with
  | none =>
      simp
  | some change =>
      by_cases candidate : validCandidate change <;> simp [candidate]

theorem validateNativeTool_ok
    {plan : RepairPlan}
    (latest : latestRepairPlan s = some plan)
    (name : ToolName)
    (noPatch : name ≠ .applyRepoPatch)
    (bound : args.workItemId =
      ((activeWorkItem env.toPlanEnv s).map (·.workItemId)).getD "") :
    validateNativeTool env s name args = .ok () ↔
      ∃ item, activeWorkItem env.toPlanEnv s = some item := by
  unfold validateNativeTool
  rw [latest]
  cases active : activeWorkItem env.toPlanEnv s with
  | none =>
      simp
  | some item =>
      rw [active] at bound
      simp [bound, noPatch]

theorem validateGenerate_ok
    (repairing : s.triggerType = .pipelineFailed)
    (backend : env.nativeBackend = false)
    (noSession : args.operation ≠ .repairSession)
    (movable : args.operation = .repair →
      ∀ progress,
        progressOf env (buildExecutionLedger s.messages) args.rootCauseId = some progress →
        progress.state ≠ .blocked ∧ progress.state ≠ .repeatExhausted) :
    validateGenerate env s (buildExecutionLedger s.messages) args = .ok () ↔
      GenerateTimely s args ∧ evaluateHermesBudget env s args = .ok () := by
  have progresses :
      validateRootProgress env (buildExecutionLedger s.messages) args = .ok () := by
    unfold validateRootProgress
    split
    · rename_i named
      have operation : args.operation = .repair := by
        simp only [ne_eq, Bool.and_eq_true, Bool.or_eq_true, decide_eq_true_eq] at named
        exact named.2.resolve_right noSession
      split
      · rfl
      · rename_i progress found
        obtain ⟨unblocked, unexhausted⟩ := movable operation progress found
        split
        · contradiction
        · contradiction
        · rfl
    · rfl
  have timely :
      validateGenerateOrder (buildExecutionLedger s.messages) args = .ok () ↔
        GenerateTimely s args := by
    unfold validateGenerateOrder GenerateTimely
    cases operation : args.operation with
    | investigate =>
        by_cases precise_ : hasPrecisePipelineEvidence (buildExecutionLedger s.messages) args <;>
          by_cases usable :
              hasUsableInvestigationAttempt (buildExecutionLedger s.messages) args <;>
            simp [precise_, usable]
    | repair =>
        by_cases evidence : hasInvestigationEvidence (buildExecutionLedger s.messages) args <;>
          simp [evidence]
    | repairSession =>
        exact absurd operation noSession
    | absent =>
        simp
    | verifyBlocker =>
        simp
    | other text =>
        simp
  unfold validateGenerate
  simp only [repairing, if_true, backend, Bool.false_eq_true, if_false, progresses, ← timely]
  split
  · rename_i reason rejected
    simp [rejected]
  · rename_i accepted
    simp [accepted]

/-! ## What is forced, and in which state -/

/-- The forced calls, each with what the state is known to be when it is forced. -/
inductive Forced (env : PolicyEnv) (s : AgentState) : MandatoryToolCall → Prop
  | unreviewed
      {call : MandatoryToolCall}
      (free :
        call.name = .waitPipeline ∨ call.name = .cloneSourceBranch ∨
          call.name = .resolveDependencyEvidence) :
      Forced env s call
  | succeeded
      {summary reason : String}
      {pipeline : SequencedResult}
      (settled : (buildRepairSnapshot s.messages).requiresExactPipeline = false)
      (published : (buildRepairSnapshot s.messages).latestPushedSha ≠ "")
      (exact_ : (buildRepairSnapshot s.messages).latestExactPipeline = some pipeline)
      (succeeded : pipeline.result.status = .success)
      (clear : pipeline.result.failedJobs = []) :
      Forced env s (finishCall true summary reason)
  | cleared
      {summary reason : String}
      (settled : (buildRepairSnapshot s.messages).requiresExactPipeline = false)
      (unproven : ∀ pipeline,
        (buildRepairSnapshot s.messages).latestExactPipeline = some pipeline →
        pipeline.result.pipelineStatus ≠ .success) :
      Forced env s (finishCall true summary reason)
  | failed
      {summary reason : String}
      (settled : (buildRepairSnapshot s.messages).requiresExactPipeline = false) :
      Forced env s (finishCall false summary reason)
  | fetch
      {reason : String} :
      Forced env s
        { name := .fetchPipelineLogs
          arguments := { pipelineId := s.pipelineId, commitSha := s.commitSha }
          reason := reason }
  | discard
      {reason : String} :
      Forced env s { name := .discardWorkspace, reason := reason }
  | bound
      {call : MandatoryToolCall}
      {plan : RepairPlan}
      (tool : call.name = .inspectRepoDiff ∨ call.name = .runRepoValidation)
      (backend : env.nativeBackend = true)
      (latest : latestRepairPlan s = some plan)
      (bound : call.arguments.workItemId =
        ((activeWorkItem env.toPlanEnv s).map (·.workItemId)).getD "") :
      Forced env s call
  | commit
      {reason : String}
      (settled : (buildRepairSnapshot s.messages).requiresExactPipeline = false)
      (below : (buildRepairSnapshot s.messages).publishedAttemptCount < loadMaxRepairCommits env)
      (native : env.nativeBackend = true →
        validateNativeCommitPreconditions env s (buildExecutionLedger s.messages) = .ok ()) :
      Forced env s { name := .commitAndPush, reason := reason }
  | generate
      {item : PipelineWorkItem}
      {operation : Operation}
      {reason : String}
      (backend : env.nativeBackend = false)
      (noSession : operation ≠ .repairSession)
      (movable : ∀ progress,
        progressOf env (buildExecutionLedger s.messages) item.rootCauseId = some progress →
        progress.state ≠ .blocked ∧ progress.state ≠ .repeatExhausted) :
      Forced env s
        { name := .generateCode
          arguments := generateArguments item operation
          reason := reason }

theorem publishes_of_collected
    (attempts pushes : List ToolAttempt)
    (published : ∀ push ∈ pushes, push.publishes = true) :
    ∀ push ∈ attempts.foldl collectPush pushes, push.publishes = true := by
  induction attempts generalizing pushes with
  | nil =>
      exact published
  | cons attempt rest ih =>
      apply ih
      intro push member
      unfold collectPush at member
      split at member
      · rename_i new
        rcases List.mem_append.mp member with old | last
        · exact published push old
        · rw [List.mem_singleton.mp last]
          exact (Bool.and_eq_true_iff.mp new).1
      · exact published push member

variable {messages : List Message}

theorem terminalProof_cases
    {proof : TerminalPipelineProof}
    (proven : (buildRepairSnapshot messages).terminalProof = some proof) :
    (buildRepairSnapshot messages).latestPushedSha ≠ "" ∧
      ∃ pipeline,
        (buildRepairSnapshot messages).latestExactPipeline = some pipeline ∧
          pipeline.result.pipelineStatus = proof.status := by
  unfold buildRepairSnapshot at proven ⊢
  dsimp only at proven ⊢
  split at proven
  · cases proven
  · rename_i push last
    dsimp only
    have member := List.mem_of_getLast? last
    have published := publishes_of_collected _ [] (fun _ none => by cases none) push member
    obtain ⟨pipeline, decided, rfl⟩ := Option.map_eq_some_iff.mp proven
    obtain ⟨found, -⟩ := Option.filter_eq_some_iff.mp decided
    simp only [ToolAttempt.publishes, Bool.and_eq_true, decide_eq_true_eq] at published
    exact ⟨published.2, pipeline, found, rfl⟩

theorem latestExactPipeline_of_unpublished
    (unpublished : (buildRepairSnapshot messages).latestPushAttempt = none) :
    (buildRepairSnapshot messages).latestExactPipeline = none := by
  unfold buildRepairSnapshot at unpublished ⊢
  dsimp only at unpublished ⊢
  split at unpublished
  · rfl
  · cases unpublished

theorem buildRepairSnapshot_ledger (messages : List Message) :
    (buildRepairSnapshot messages).ledger = buildExecutionLedger messages := by
  unfold buildRepairSnapshot
  dsimp only
  split <;> rfl

theorem publicationAction_cases (env : PolicyEnv) (s : AgentState) :
    (∃ call, publicationAction env s (buildRepairSnapshot s.messages) = some call ∧
        Forced env s call) ∨
      publicationAction env s (buildRepairSnapshot s.messages) = none ∧
        (buildRepairSnapshot s.messages).requiresExactPipeline = false ∧
        (buildRepairSnapshot s.messages).publishedAttemptCount < loadMaxRepairCommits env := by
  unfold publicationAction
  dsimp only
  split
  · exact Or.inl ⟨_, rfl, .unreviewed (Or.inl rfl)⟩
  · rename_i settled
    rw [Bool.not_eq_true] at settled
    split
    · rename_i proven
      simp only [Bool.and_eq_true, decide_eq_true_eq, Option.any_eq_true] at proven
      obtain ⟨status, pipeline, exact_, succeeded, clear⟩ := proven
      obtain ⟨proof, found, -⟩ := Option.map_eq_some_iff.mp status
      obtain ⟨published, -⟩ := terminalProof_cases found
      exact Or.inl ⟨_, rfl, .succeeded settled published exact_ succeeded clear⟩
    · split
      · exact Or.inl ⟨_, rfl, .failed settled⟩
      · split
        · exact Or.inl ⟨_, rfl, .failed settled⟩
        · rename_i below
          exact Or.inr ⟨rfl, settled, not_le.mp below⟩

theorem native_commit_reviewed
    {bound : Nat}
    (allowed :
      (evaluateNativeCommit
        ((planScopedAttempts s (buildExecutionLedger s.messages)).filter
          (·.sequence > bound))).allowed = true)
    (decided :
      (repairPlanCommitDecision env.toPlanEnv s
        (evaluateNativeCommit
          ((planScopedAttempts s (buildExecutionLedger s.messages)).filter
            (·.sequence > bound)))).allowed = true) :
    validateNativeCommitPreconditions env s (buildExecutionLedger s.messages) = .ok () := by
  have ordered :
      (planScopedAttempts s (buildExecutionLedger s.messages)).Pairwise
        (·.sequence < ·.sequence) := by
    unfold planScopedAttempts
    split
    · exact toolAttempts_ordered s.messages
    · exact (toolAttempts_ordered s.messages).filter _
  have same :
      evaluateNativeCommit (planScopedAttempts s (buildExecutionLedger s.messages)) =
        evaluateNativeCommit
          ((planScopedAttempts s (buildExecutionLedger s.messages)).filter
            (·.sequence > bound)) := by
    nth_rewrite 1 [filter_append_filter_of_ordered ordered bound]
    exact evaluateNativeCommit_append allowed
  unfold validateNativeCommitPreconditions
  dsimp only
  rw [same, if_pos decided]

variable {call : MandatoryToolCall}

theorem nextNativePipelineAction_forced
    (backend : env.nativeBackend = true)
    (settled : (buildRepairSnapshot s.messages).requiresExactPipeline = false)
    (below : (buildRepairSnapshot s.messages).publishedAttemptCount < loadMaxRepairCommits env)
    (next :
      nextNativePipelineAction env s (buildExecutionLedger s.messages) pipeline = some call) :
    Forced env s call := by
  unfold nextNativePipelineAction at next
  split at next
  · cases next
    exact .unreviewed (Or.inr (Or.inl rfl))
  · split at next
    · cases next
    · rename_i plan latest
      dsimp only at next
      split at next
      · split at next
        · cases next
          exact .discard
        · cases next
          exact .failed settled
      · split at next
        · cases next
          exact .failed settled
        · split at next
          · cases next
          · split at next
            · cases next
            · split at next
              · cases next
                exact .bound (Or.inl rfl) backend latest rfl
              · split at next
                · cases next
                  exact .bound (Or.inr rfl) backend latest rfl
                · split at next
                  · rename_i admitted
                    obtain ⟨allowed, decided⟩ := Bool.and_eq_true_iff.mp admitted
                    cases next
                    exact .commit settled below fun _ => native_commit_reviewed allowed decided
                  · cases next

theorem currentGenerateFrom_movable
    {terminal : List String}
    (items : List PipelineWorkItem)
    (seen : List String)
    (found : currentGenerateFrom pipeline ledger terminal seen items = some item) :
    item.rootCauseId ∉ terminal := by
  induction items generalizing seen with
  | nil =>
      cases found
  | cons first rest ih =>
      unfold currentGenerateFrom at found
      split at found
      · exact ih _ found
      · dsimp only at found
        split at found
        · exact ih _ found
        · rename_i open_
          cases found
          simp only [Bool.or_eq_true, decide_eq_true_eq, not_or] at open_
          exact open_.1.1

theorem progress_of_not_terminal
    {root : String}
    (movable : root ∉ rootsInState (rootCauseProgress env ledger) [.blocked, .repeatExhausted])
    {progress : RootCauseProgress}
    (found : progressOf env ledger root = some progress) :
    progress.state ≠ .blocked ∧ progress.state ≠ .repeatExhausted := by
  have member := List.mem_of_find?_eq_some found
  have named : progress.rootCauseId = root := by
    simpa using List.find?_some found
  have open_ : ∀ state ∈ [RootCauseState.blocked, .repeatExhausted], progress.state ≠ state := by
    rintro state final rfl
    apply movable
    exact List.mem_map.mpr
      ⟨progress, List.mem_filter.mpr ⟨member, decide_eq_true final⟩, named⟩
  exact ⟨open_ _ (by simp), open_ _ (by simp)⟩

theorem nextGenerateAction_forced
    (backend : env.nativeBackend = false)
    (settled : (buildRepairSnapshot s.messages).requiresExactPipeline = false)
    (below : (buildRepairSnapshot s.messages).publishedAttemptCount < loadMaxRepairCommits env)
    (unproven : ∀ pipeline,
      (buildRepairSnapshot s.messages).latestExactPipeline = some pipeline →
      pipeline.result.pipelineStatus ≠ .success)
    (next : nextGenerateAction env s (buildExecutionLedger s.messages) pipeline = some call) :
    Forced env s call := by
  unfold nextGenerateAction at next
  dsimp only at next
  split at next
  · cases next
    unfold noGenerateItemAction
    dsimp only
    split
    · exact .cleared settled unproven
    · split
      · exact .failed settled
      · split
        · exact .failed settled
        · exact .failed settled
  · rename_i item found
    have movable : ∀ progress,
        progressOf env (buildExecutionLedger s.messages) item.rootCauseId = some progress →
        progress.state ≠ .blocked ∧ progress.state ≠ .repeatExhausted :=
      fun _ => progress_of_not_terminal (currentGenerateFrom_movable _ _ found)
    split at next
    · cases next
      exact .failed settled
    · split at next
      · cases next
        exact .unreviewed (Or.inr (Or.inl rfl))
      · split at next
        · cases next
          exact .unreviewed (Or.inr (Or.inr rfl))
        · unfold repairItemAction at next
          dsimp only at next
          split at next
          · cases next
            exact .generate backend (by decide) movable
          · split at next
            · cases next
            · split at next
              · cases next
                exact .generate backend (by decide) movable
              · unfold afterRepairAction at next
                split at next
                · split at next
                  · cases next
                  · cases next
                    exact .commit settled below fun native => absurd native (by simp [backend])
                · split at next
                  · cases next
                  · cases next
                    exact .commit settled below fun native => absurd native (by simp [backend])
                · cases next
                  exact .discard
                · split at next
                  · cases next
                    exact .generate backend (by decide) movable
                  · split at next
                    · cases next
                      exact .failed settled
                    · cases next
                · cases next

theorem unproven_of_currentPipeline
    (current : currentPipeline (buildRepairSnapshot messages) = some pipeline)
    (failed : pipeline.result.pipelineStatus = .failed) :
    ∀ other,
      (buildRepairSnapshot messages).latestExactPipeline = some other →
      other.result.pipelineStatus ≠ .success := by
  intro other exact_ succeeded
  unfold currentPipeline at current
  split at current
  · rw [exact_] at current
    cases current
    rw [failed] at succeeded
    cases succeeded
  · rename_i unpublished
    have none_ : (buildRepairSnapshot messages).latestPushAttempt = none := by
      simpa using unpublished
    rw [latestExactPipeline_of_unpublished none_] at exact_
    cases exact_

theorem nextMandatoryPipelineAction_forced
    (next : nextMandatoryPipelineAction env s = some call) :
    s.triggerType = .pipelineFailed ∧ Forced env s call := by
  unfold nextMandatoryPipelineAction at next
  split at next
  · cases next
  · rename_i repairing
    refine ⟨not_not.mp repairing, ?_⟩
    dsimp only at next
    rcases publicationAction_cases env s with ⟨action, first, forced⟩ | ⟨free, settled, below⟩
    · rw [first] at next
      cases next
      exact forced
    · rw [free, buildRepairSnapshot_ledger] at next
      dsimp only at next
      split at next
      · unfold fetchAction at next
        split at next
        · cases next
        · cases next
          exact .fetch
      · rename_i pipeline current
        split at next
        · cases next
        · rename_i failed
          have unproven := unproven_of_currentPipeline current (not_not.mp failed)
          split at next
          · rename_i backend
            exact nextNativePipelineAction_forced backend settled below next
          · rename_i backend
            exact nextGenerateAction_forced (by simpa using backend) settled below unproven next

theorem validateFinish_of_settled
    (repairing : s.triggerType = .pipelineFailed)
    (settled : (buildRepairSnapshot s.messages).requiresExactPipeline = false)
    (args : ToolArgs) :
    validateFinish env s args =
      if args.success then validateSuccessfulFinish (buildRepairSnapshot s.messages)
      else validateFailedFinish env s args := by
  unfold validateFinish terminalGuard
  simp only [repairing, settled, Bool.false_eq_true, if_true, if_false]

theorem Forced.review
    (repairing : s.triggerType = .pipelineFailed)
    (forced : Forced env s call) :
    ReviewAccepts env s call ↔ MandateAccepted env s call := by
  unfold ReviewAccepts MandateAccepted
  cases forced with
  | unreviewed free =>
      rcases free with name | name | name <;>
        simp [name, validateToolCall, ToolName.allowedInRepair]
  | @succeeded summary reason pipeline settled published exact_ succeeded clear =>
      have reviewed := validateSuccessfulFinish_ok published exact_ succeeded clear
      simp [finishCall, validateToolCall, ToolName.allowedInRepair,
        validateFinish_of_settled repairing settled, reviewed, SuccessProven, exact_]
  | @cleared summary reason settled unproven =>
      have refused := validateSuccessfulFinish_error unproven
      have noSuccess : ¬SuccessProven s := by
        rintro ⟨pipeline, exact_, succeeded, -⟩
        exact unproven pipeline exact_ succeeded
      simp [finishCall, validateToolCall, ToolName.allowedInRepair,
        validateFinish_of_settled repairing settled, refused, noSuccess]
  | @failed summary reason settled =>
      simp [finishCall, validateToolCall, ToolName.allowedInRepair,
        validateFinish_of_settled repairing settled, validateFailedFinish_ok]
  | @fetch reason =>
      simp only [validateToolCall, ToolName.allowedInRepair, Bool.not_true, Bool.and_false,
        Bool.false_eq_true, if_false, reduceCtorEq, false_implies, and_true]
      exact repeatedPipelineFetch_ok rfl rfl
  | @discard reason =>
      simp only [validateToolCall, ToolName.allowedInRepair, Bool.not_true, Bool.and_false,
        Bool.false_eq_true, if_false, reduceCtorEq, false_implies, and_true]
      exact validateDiscard_ok
  | @bound _ plan tool backend latest bound =>
      rcases tool with name | name
      · have reviewed := validateNativeTool_ok latest .inspectRepoDiff (by decide) bound
        simp [name, validateToolCall, ToolName.allowedInRepair, repairing, backend, reviewed]
      · have reviewed := validateNativeTool_ok latest .runRepoValidation (by decide) bound
        simp [name, validateToolCall, ToolName.allowedInRepair, repairing, backend, reviewed]
  | @commit reason settled below native =>
      have publication :
          validatePublication env s (buildExecutionLedger s.messages) = .ok () ↔ _ :=
        validatePublication_ok
      simp only [settled, below, and_true] at publication
      cases backend : env.nativeBackend with
      | false =>
          simp [validateToolCall, ToolName.allowedInRepair, validateCommit, backend, publication,
            WorkspaceSound]
      | true =>
          simp [validateToolCall, ToolName.allowedInRepair, validateCommit, repairing, backend,
            native backend, publication, WorkspaceSound]
  | @generate item operation reason backend noSession movable =>
      have reviewed :
          validateGenerate env s (buildExecutionLedger s.messages)
              (generateArguments item operation) = .ok () ↔ _ :=
        validateGenerate_ok repairing backend noSession fun _ => movable
      simp [validateToolCall, ToolName.allowedInRepair, reviewed]

/--
A mandatory action is issued as it is, whatever the review would say; and the
review would accept it exactly under the condition of its tool.
-/
theorem mandatory_action_issued_and_reviewed
    {env : PolicyEnv}
    {s : AgentState}
    {call : MandatoryToolCall}
    (next : nextMandatoryPipelineAction env s = some call) :
    (∀ (iteration maxIterations : Nat) (reply : AgentTurn),
        iteration < maxIterations ∨ call.name.convergence = true →
        agentNode env s iteration maxIterations reply = .calls [(call.name, call.arguments)]) ∧
      (ReviewAccepts env s call ↔ MandateAccepted env s call) := by
  obtain ⟨repairing, forced⟩ := nextMandatoryPipelineAction_forced next
  refine ⟨?_, forced.review repairing⟩
  intro iteration maxIterations reply open_
  unfold agentNode
  simp only [next, Option.any_some]
  rw [if_neg]
  simp only [Bool.and_eq_true, decide_eq_true_eq, Bool.not_eq_true', not_and, Bool.not_eq_false]
  intro exhausted
  exact open_.resolve_left (not_lt.mpr exhausted)

namespace ThreeItems

/-- The code generator repairs, not the native tools. -/
def hermes : PolicyEnv :=
  { policy with nativeBackend := false }

/-- The Pipeline has failed, but no selected job is among its failed jobs. -/
def scopeCleared : AgentState :=
  { started with
    messages := exchange "f" .fetchPipelineLogs ""
      { status := .success, pipelineStatus := .failed, workItems := some [] } }

/-- A repair has been published and its Pipeline has not been seen yet. -/
def justPushed : AgentState :=
  { started with
    messages := exchange "c" .commitAndPush ""
      { status := .success, changed := true, commitSha := "d" } }

end ThreeItems

open ThreeItems in
theorem mandatory_wait_accepted :
    ∃ call,
      nextMandatoryPipelineAction hermes justPushed = some call ∧ call.name = .waitPipeline ∧
        agentNode hermes justPushed 0 1 (.text "") = .calls [(call.name, call.arguments)] ∧
        ReviewAccepts hermes justPushed call := by
  have evaluated :
      (nextMandatoryPipelineAction hermes justPushed).any (fun call =>
        decide (call.name = .waitPipeline)) = true := by
    decide +kernel
  simp only [Option.any_eq_true, decide_eq_true_eq] at evaluated
  obtain ⟨call, next, waits⟩ := evaluated
  obtain ⟨issued, reviewed⟩ := mandatory_action_issued_and_reviewed next
  refine ⟨call, next, waits, issued 0 1 (.text "") (Or.inl (by decide)), reviewed.mpr ?_⟩
  unfold MandateAccepted
  rw [waits]
  trivial

open ThreeItems in
/--
When no selected job has failed the run must end with a success, although
nothing was published: the review of endings rejects that very call.
-/
theorem mandatory_finish_rejected :
    ∃ call,
      nextMandatoryPipelineAction hermes scopeCleared = some call ∧
        ¬ReviewAccepts hermes scopeCleared call := by
  have evaluated :
      (nextMandatoryPipelineAction hermes scopeCleared).any (fun call =>
        decide (call.name = .finish) && !(validateFinish hermes scopeCleared call.arguments).isOk) =
          true := by
    decide +kernel
  simp only [Option.any_eq_true, Bool.and_eq_true, decide_eq_true_eq, Bool.not_eq_true']
    at evaluated
  obtain ⟨call, next, refused⟩ := evaluated
  refine ⟨call, next, ?_⟩
  rintro ⟨-, accepted⟩
  rw [accepted refused.1] at refused
  cases refused.2

end MrAgent
