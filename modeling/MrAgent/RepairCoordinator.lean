import Mathlib
import MrAgent.RepairPlan

namespace MrAgent

/-!
# Published repairs and their Pipelines

`repair_coordinator.py`: which pushes of the run have been published, and how
far the Pipeline of the latest one has come. Tools write the status of a result
in lower case, so that `lower()` changes none of the values below.
-/

/-- The integer settings of the section `TRIAGE`. -/
inductive TriageSetting where
  | maxRepairCommits
  | noProgressLimit
  | maxInvestigationsPerGroup
  | maxHermesCallsTotal
  | maxHermesCallsPerGroup
  | maxBlockerCorrections
deriving DecidableEq

/--
Taken from elsewhere: the settings (`none` when missing or no integer), SHA-256
over the JSON of a result without a progress fingerprint, the validations that
`native_failed_validation_counts` counts for a root cause, and the checks of
`required_checks_for_paths`.
-/
structure PolicyEnv extends PlanEnv where
  setting : TriageSetting → Option Int
  fingerprint : ResultStatus → String → List String → String
  failedValidationCounts : AgentState → String → Nat
  requiredChecksForPaths : AgentState → List String → List String

/-- `_positive_setting`. -/
def PolicyEnv.positiveSetting (env : PolicyEnv) (name : TriageSetting) (default : Int) : Nat :=
  (max 1 ((env.setting name).getD default)).toNat

/-- `load_max_repair_commits`. -/
def loadMaxRepairCommits (env : PolicyEnv) : Nat :=
  env.positiveSetting .maxRepairCommits 3

/-- `PublicationPhase`. -/
inductive PublicationPhase where
  | none
  | unverified
  | nonterminal
  | terminal
deriving DecidableEq

/-- Membership in `_TERMINAL_PIPELINE_STATUSES`. -/
def PipelineStatus.terminal : PipelineStatus → Bool
  | .success | .failed | .canceled | .skipped => true
  | _ => false

/-- Membership in `_NONTERMINAL_PIPELINE_STATUSES`. -/
def PipelineStatus.nonterminal : PipelineStatus → Bool
  | .absent | .created | .pending | .preparing | .running | .waitingForResource => true
  | _ => false

/-- `TerminalPipelineProof`. -/
structure TerminalPipelineProof where
  attemptId : String
  commitSha : String
  pipelineId : Int
  status : PipelineStatus
deriving DecidableEq

/-- `RepairCoordinatorSnapshot`. -/
structure RepairCoordinatorSnapshot where
  ledger : ExecutionLedger
  publishedAttemptCount : Nat := 0
  latestPushAttempt : Option ToolAttempt := none
  latestPushedSha : String := ""
  latestAttemptId : String := ""
  publicationPhase : PublicationPhase := .none
  latestExactPipeline : Option SequencedResult := none
  terminalProof : Option TerminalPipelineProof := none

/-- `requires_exact_pipeline`. -/
def RepairCoordinatorSnapshot.requiresExactPipeline
    (snapshot : RepairCoordinatorSnapshot) : Bool :=
  match snapshot.publicationPhase with
  | .unverified | .nonterminal => true
  | .none | .terminal => false

/-- The attempt is a push that succeeded and published a commit. -/
def ToolAttempt.publishes (attempt : ToolAttempt) : Bool :=
  attempt.name = .commitAndPush && attempt.facts.status = .success && attempt.facts.changed &&
    attempt.facts.commitSha ≠ ""

/-- One round of the loop of `_successful_push_attempts`. -/
def collectPush (pushes : List ToolAttempt) (attempt : ToolAttempt) : List ToolAttempt :=
  if attempt.publishes && attempt.facts.commitSha ∉ pushes.map (·.facts.commitSha) then
    pushes ++ [attempt]
  else pushes

/-- `_successful_push_attempts`: one attempt for each published SHA. -/
def successfulPushAttempts (ledger : ExecutionLedger) : List ToolAttempt :=
  ledger.toolAttempts.foldl collectPush []

/-- `_pipeline_matches_attempt`. -/
def pipelineMatchesAttempt (pipeline : ToolResult) (pushedSha attemptId : String) : Bool :=
  (pipeline.status = .success || pipeline.status = .running) &&
    pipeline.requestedCommitSha = pushedSha && pipeline.matchedCommitSha = pushedSha &&
    (attemptId = "" || pipeline.attemptId = "" || pipeline.attemptId = attemptId)

/-- `_pipeline_id`. -/
def pipelineNumber (pipeline : ToolResult) : Int :=
  match pipeline.validationPipelineId.filter (· ≠ 0) with
  | some id => id
  | none => pipeline.pipelineId.getD 0

/-- The Pipelines after a push that are exactly those of its SHA. -/
def exactPipelines (ledger : ExecutionLedger) (push : ToolAttempt) : List SequencedResult :=
  ledger.pipelines.filter fun pipeline =>
    pipeline.sequence > push.sequence &&
      pipelineMatchesAttempt pipeline.result push.facts.commitSha push.facts.attemptId

/-- The Pipeline that stands for a push: the last terminal one, or the last one. -/
def decidingPipeline (ledger : ExecutionLedger) (push : ToolAttempt) : Option SequencedResult :=
  let exact := exactPipelines ledger push
  (exact.filter (·.result.pipelineStatus.terminal)).getLast?.or exact.getLast?

/-- `build_repair_snapshot`. -/
def buildRepairSnapshot (messages : List Message) : RepairCoordinatorSnapshot :=
  let ledger := buildExecutionLedger messages
  let pushes := successfulPushAttempts ledger
  match pushes.getLast? with
  | none => { ledger := ledger }
  | some push =>
    let pipeline := decidingPipeline ledger push
    let decided := pipeline.filter (·.result.pipelineStatus.terminal)
    { ledger := ledger
      publishedAttemptCount := pushes.length
      latestPushAttempt := some push
      latestPushedSha := push.facts.commitSha
      latestAttemptId := push.facts.attemptId
      publicationPhase :=
        if pipeline.isNone then .unverified
        else if decided.isSome then .terminal
        else .nonterminal
      latestExactPipeline := pipeline
      terminalProof :=
        decided.map fun proof =>
          { attemptId := push.facts.attemptId
            commitSha := push.facts.commitSha
            pipelineId := pipelineNumber proof.result
            status := proof.result.pipelineStatus } }

/-- `terminal_guard`; the error is the reason. -/
def terminalGuard (snapshot : RepairCoordinatorSnapshot) : Except String Unit :=
  if snapshot.requiresExactPipeline then
    .error s!"修复提交 {snapshot.latestPushedSha} 尚未完成精确流水线验证。"
  else .ok ()

/-! ## What the snapshot says about the history -/

/-- The SHAs that the run has published, in any order and any number of times. -/
def publishedShas (ledger : ExecutionLedger) : List String :=
  (ledger.toolAttempts.filter (·.publishes)).map (·.facts.commitSha)

theorem foldl_collectPush
    (attempts pushes : List ToolAttempt)
    (unique : (pushes.map (·.facts.commitSha)).Nodup) :
    ((attempts.foldl collectPush pushes).map (·.facts.commitSha)).Nodup ∧
      ∀ sha,
        sha ∈ (attempts.foldl collectPush pushes).map (·.facts.commitSha) ↔
          sha ∈ pushes.map (·.facts.commitSha) ∨
            sha ∈ (attempts.filter (·.publishes)).map (·.facts.commitSha) := by
  induction attempts generalizing pushes with
  | nil =>
      simp [unique]
  | cons attempt rest ih =>
      rw [List.foldl_cons]
      by_cases published : attempt.publishes
      · by_cases seen : attempt.facts.commitSha ∈ pushes.map (·.facts.commitSha)
        · have same : collectPush pushes attempt = pushes := by
            simp only [collectPush, published, seen, not_true_eq_false, decide_false,
              Bool.and_false, Bool.false_eq_true, if_false]
          rw [same]
          obtain ⟨kept, members⟩ := ih pushes unique
          refine ⟨kept, ?_⟩
          intro sha
          rw [members, List.filter_cons_of_pos published, List.map_cons, List.mem_cons]
          constructor
          · rintro (old | new)
            · exact Or.inl old
            · exact Or.inr (Or.inr new)
          · rintro (old | rfl | new)
            · exact Or.inl old
            · exact Or.inl seen
            · exact Or.inr new
        · have added : collectPush pushes attempt = pushes ++ [attempt] := by
            simp only [collectPush, published, seen, not_false_eq_true, decide_true,
              Bool.and_self, if_true]
          rw [added]
          have fresh : ((pushes ++ [attempt]).map (·.facts.commitSha)).Nodup := by
            rw [List.map_append, List.nodup_append]
            refine ⟨unique, List.nodup_singleton _, ?_⟩
            intro sha old other new
            rw [List.map_singleton, List.mem_singleton] at new
            rintro rfl
            exact seen (new ▸ old)
          obtain ⟨kept, members⟩ := ih _ fresh
          refine ⟨kept, ?_⟩
          intro sha
          rw [members, List.filter_cons_of_pos published]
          simp only [List.map_append, List.map_cons, List.map_nil, List.mem_append, List.mem_cons,
            List.not_mem_nil, or_false, or_assoc]
      · have same : collectPush pushes attempt = pushes := by
          simp only [collectPush, published, Bool.false_and, Bool.false_eq_true, if_false]
        rw [same, List.filter_cons_of_neg published]
        exact ih pushes unique

theorem length_successfulPushAttempts (ledger : ExecutionLedger) :
    (successfulPushAttempts ledger).length = (publishedShas ledger).toFinset.card := by
  obtain ⟨unique, members⟩ := foldl_collectPush ledger.toolAttempts [] List.nodup_nil
  have same :
      ((successfulPushAttempts ledger).map (·.facts.commitSha)).toFinset =
        (publishedShas ledger).toFinset := by
    ext sha
    rw [List.mem_toFinset, List.mem_toFinset]
    exact (members sha).trans (by simp [publishedShas])
  have counted := List.toFinset_card_of_nodup unique
  rw [List.length_map] at counted
  rw [← same]
  exact counted.symm

theorem publishedAttemptCount_eq (messages : List Message) :
    (buildRepairSnapshot messages).publishedAttemptCount =
      (publishedShas (buildExecutionLedger messages)).toFinset.card := by
  rw [← length_successfulPushAttempts]
  unfold buildRepairSnapshot
  dsimp only
  split
  · rename_i empty
    rw [List.getLast?_eq_none_iff.mp empty]
    rfl
  · rfl

theorem exists_terminal_pipeline
    {messages : List Message}
    {push : ToolAttempt}
    (settled : (buildRepairSnapshot messages).requiresExactPipeline = false)
    (latest : (successfulPushAttempts (buildExecutionLedger messages)).getLast? = some push) :
    ∃ pipeline ∈ exactPipelines (buildExecutionLedger messages) push,
      pipeline.result.pipelineStatus.terminal = true := by
  unfold buildRepairSnapshot RepairCoordinatorSnapshot.requiresExactPipeline at settled
  simp only [latest] at settled
  cases found : decidingPipeline (buildExecutionLedger messages) push with
  | none =>
      simp [found] at settled
  | some pipeline =>
      by_cases terminal : pipeline.result.pipelineStatus.terminal
      · refine ⟨pipeline, ?_, terminal⟩
        unfold decidingPipeline at found
        rcases Option.or_eq_some_iff.mp found with last | ⟨-, last⟩
        · exact List.mem_of_mem_filter (List.mem_of_getLast? last)
        · exact List.mem_of_getLast? last
      · simp [found, terminal] at settled

end MrAgent
