import MrAgent.BrokerModel

namespace MrAgent

/-!
# The execution ledger of a repair run

`execution_ledger.py`: the conversation of the agent is the only history it
keeps, and every policy of the repair run reads it through the facts that
`build_execution_ledger` extracts. Tool results are JSON objects; a field that
is absent is the default of the record below, as `get(...) or ""` reads it.
-/

/-- The tools the repair policies name. -/
inductive ToolName where
  | fetchPipelineLogs
  | cloneSourceBranch
  | resolveDependencyEvidence
  | generateCode
  | discardWorkspace
  | commitAndPush
  | waitPipeline
  | finish
  | searchRepo
  | readRepoFile
  | fetchCoverageReport
  | applyFormatReport
  | requestRepairReplan
  | applyRepoPatch
  | inspectRepoDiff
  | runRepoValidation
  | other (name : String)
deriving DecidableEq

/-- The `status` of a tool result. -/
inductive ResultStatus where
  | absent
  | ok
  | success
  | changed
  | partialChanges
  | unexpectedChanges
  | unsafeChanges
  | noChanges
  | blocked
  | error
  | running
  | resolved
  | notApplicable
  | notFound
  | ambiguous
  | limitExceeded
  | investigated
  | investigationTimeout
  | repairNoChanges
  | repairTimeout
  | incomplete
  | codingInfraError
  | unknown
  | other (text : String)
deriving DecidableEq

/-- The `operation` of a call of the code generator. -/
inductive Operation where
  | absent
  | investigate
  | repair
  | repairSession
  | verifyBlocker
  | other (text : String)
deriving DecidableEq

/-- The `failure_kind` of an investigation that ran out of time. -/
inductive FailureKind where
  | absent
  | searchLoop
  | executionBudgetExhausted
  | other (text : String)
deriving DecidableEq

/-- One observation that supports a blocker: its job, or its kind and place in the repository. -/
structure BlockerEvidence where
  jobName : Option String := none
  kind : String := ""
  locator : String := ""
  observation : String := ""
deriving DecidableEq

/-- A structured blocker; a field of the wrong type is as invalid as an empty one. -/
structure BlockerRecord where
  schemaVersion : Int := 0
  outcome : String := ""
  jobName : Option String := none
  blockerType : String := ""
  rootCause : String := ""
  whyNoSafeRepoChange : String := ""
  suggestedAction : String := ""
  ciEvidence : List BlockerEvidence := []
  repositoryEvidence : List BlockerEvidence := []
  attemptedRepairs : List String := []
deriving DecidableEq

/-- The `pipeline_status` of a Pipeline result; GitLab writes it in lower case. -/
inductive PipelineStatus where
  | absent
  | created
  | pending
  | preparing
  | running
  | waitingForResource
  | success
  | failed
  | canceled
  | skipped
  | other (text : String)
deriving DecidableEq

/-- One root-cause group of a failed Pipeline. -/
structure RootCauseGroup where
  rootCauseId : String := ""
  canonicalDiagnostic : String := ""
  canonicalJobName : String := ""
  jobNames : List String := []
deriving DecidableEq

/-- One failed job of a Pipeline. -/
structure FailedJob where
  name : String := ""
  jobId : Option Int := none
  status : String := ""
  logTail : String := ""
  causalLines : List String := []
  jobName : String := ""
  diagnostic : String := ""
  evidenceMode : String := ""
deriving DecidableEq

/-- One job of a Pipeline with the status it was seen in. -/
structure ObservedJob where
  name : String := ""
  jobName : String := ""
  status : String := ""
deriving DecidableEq

/-- What has become of one root cause between two Pipelines. -/
structure RootTransition where
  rootCauseId : String := ""
  status : String := ""
  previousJobNames : List String := []
  currentJobNames : List String := []
deriving DecidableEq

/-- The comparison of two Pipelines, as it is kept with the later one. -/
structure FailureReconciliation where
  previousPipelineId : Option Int := none
  previousRequestedCommitSha : String := ""
  previousMatchedCommitSha : String := ""
  currentPipelineId : Option Int := none
  currentRequestedCommitSha : String := ""
  currentMatchedCommitSha : String := ""
  transitions : List RootTransition := []
  transitionsTruncated : Bool := false
  currentObservedJobsTruncated : Bool := false
deriving DecidableEq

/-- One job-level work item of a failed Pipeline. -/
structure PipelineWorkItem where
  rootCauseId : String := ""
  jobId : Option Int := none
  pipelineId : Option Int := none
  jobName : String := ""
  canonicalJobName : String := ""
  kind : String := ""
  requiredTool : String := ""
  preflightBlocker : Option BlockerRecord := none
deriving DecidableEq

/-- A `preflight_blocker` with outcome `blocked` is attached. -/
def PipelineWorkItem.preflightBlocked (item : PipelineWorkItem) : Bool :=
  item.preflightBlocker.any (·.outcome = "blocked")

/-- One entry of `executed_checks`. -/
structure ExecutedCheck where
  name : String
  passed : Bool
deriving DecidableEq

/-- Arguments of a tool call, as far as a policy reads them. -/
structure ToolArgs where
  workItemId : String := ""
  filePath : String := ""
  patchPaths : List String := []
  jobId : Option Int := none
  jobName : Option String := none
  rootCauseId : String := ""
  operation : Operation := .absent
  pipelineId : Option Int := none
  commitSha : String := ""
  startLine : Int := 0
  checks : List String := []
  success : Bool := false
  summary : String := ""
deriving DecidableEq

/-- A tool result that is a JSON object. -/
structure ToolResult where
  status : ResultStatus := .absent
  errorCode : String := ""
  changed : Bool := false
  commitSha : String := ""
  attemptId : String := ""
  attemptSequence : Int := 0
  baseSha : String := ""
  diffDigest : String := ""
  patchApplied : Bool := false
  workItemId : String := ""
  changedFiles : List String := []
  /-- The total and the page bounds of an inspected Diff are integers. -/
  pageReadable : Bool := true
  totalLines : Int := 0
  startLine : Int := 0
  endLine : Int := 0
  /-- The lines of the inspected Diff page. -/
  diff : List String := []
  validatedDiffDigest : String := ""
  requiredChecks : List String := []
  executedChecks : List ExecutedCheck := []
  allPassed : Bool := false
  pipelineStatus : PipelineStatus := .absent
  requestedCommitSha : String := ""
  matchedCommitSha : String := ""
  pipelineId : Option Int := none
  validationPipelineId : Option Int := none
  failedJobs : List FailedJob := []
  rootCauseGroups : List RootCauseGroup := []
  /-- `none` when the result has no `work_items`. -/
  workItems : Option (List PipelineWorkItem) := none
  /-- `none` when the result has no `root_pipeline_id`. -/
  rootPipelineId : Option (Option Int) := none
  observedJobs : List ObservedJob := []
  observedJobsTruncated : Bool := false
  failureReconciliation : Option FailureReconciliation := none
  planId : String := ""
  lineageId : String := ""
  expectedVersion : Int := 0
  reason : String := ""
  hypothesis : String := ""
  proposedPaths : List String := []
  /-- The paths of the `matches` of a repository search. -/
  matchedPaths : List String := []
  operation : Operation := .absent
  rootCauseId : String := ""
  jobName : String := ""
  diagnostic : String := ""
  message : String := ""
  failureKind : FailureKind := .absent
  progressFingerprint : String := ""
  blocker : Option BlockerRecord := none
  terminalProtocolStatus : String := ""
  /-- A `repair_report` object is attached. -/
  repairReport : Bool := false
  terminalValidationErrorCode : String := ""
  validationError : String := ""
  /-- Whether a coverage report is `available`. -/
  available : Option Bool := none
deriving DecidableEq

/-- A tool call announced by an assistant message. -/
structure ToolCall where
  id : String
  name : ToolName
  args : ToolArgs := {}
deriving DecidableEq

/-- The content of a message, parsed as the ledger parses it. -/
inductive MessageContent where
  | text (raw : String)
  | object (result : ToolResult)
deriving DecidableEq

/-- A message of the conversation. -/
structure Message where
  toolCalls : List ToolCall := []
  toolCallId : String := ""
  content : MessageContent := .text ""
deriving DecidableEq

/-- `ToolAttempt`: a call that has been answered. -/
structure ToolAttempt where
  name : ToolName
  args : ToolArgs
  result : Option ToolResult
  sequence : Nat
  resultText : String := ""
deriving DecidableEq

namespace ToolAttempt

/-- `attempt.result or {}`. -/
def facts (attempt : ToolAttempt) : ToolResult :=
  attempt.result.getD {}

end ToolAttempt

/-- A result stored with the position of its message, the key `_sequence`. -/
structure SequencedResult where
  result : ToolResult
  sequence : Nat
deriving DecidableEq

/-- `ExecutionLedger`. -/
structure ExecutionLedger where
  pushes : List ToolResult := []
  pipelines : List SequencedResult := []
  toolAttempts : List ToolAttempt := []
  replanRequests : List SequencedResult := []
deriving DecidableEq

/-- The local variables of `build_execution_ledger`; the newest call of an id comes first. -/
structure LedgerScan where
  ledger : ExecutionLedger := {}
  calls : List (String × ToolName × ToolArgs) := []
  pushPositions : List (String × Nat) := []

namespace ExecutionLedger

/-- What a JSON object adds to the ledger beside its tool attempt. -/
def recordPush (scan : LedgerScan) (result : ToolResult) : LedgerScan :=
  match if result.attemptId = "" then none else scan.pushPositions.lookup result.attemptId with
  | some position =>
    { scan with
      ledger := { scan.ledger with pushes := scan.ledger.pushes.set position result } }
  | none =>
    { scan with
      pushPositions :=
        if result.attemptId = "" then scan.pushPositions
        else (result.attemptId, scan.ledger.pushes.length) :: scan.pushPositions
      ledger := { scan.ledger with pushes := scan.ledger.pushes ++ [result] } }

/-- The branch of the loop for a result that is a JSON object. -/
def recordResult
    (scan : LedgerScan)
    (name : ToolName)
    (result : ToolResult)
    (sequence : Nat) : LedgerScan :=
  match name with
  | .commitAndPush => recordPush scan result
  | .waitPipeline | .fetchPipelineLogs =>
    { scan with
      ledger := { scan.ledger with
        pipelines := scan.ledger.pipelines ++ [⟨result, sequence⟩] } }
  | .requestRepairReplan =>
    if result.status = .success then
      { scan with
        ledger := { scan.ledger with
          replanRequests := scan.ledger.replanRequests ++ [⟨result, sequence⟩] } }
    else scan
  | _ => scan

/-- Append a tool attempt. -/
def attempted (scan : LedgerScan) (attempt : ToolAttempt) : LedgerScan :=
  { scan with
    ledger := { scan.ledger with toolAttempts := scan.ledger.toolAttempts ++ [attempt] } }

/-- Remember the calls a message announces; a call without id or name is dropped. -/
def announce
    (calls : List (String × ToolName × ToolArgs))
    (toolCalls : List ToolCall) : List (String × ToolName × ToolArgs) :=
  toolCalls.foldl
    (fun known call =>
      if call.id = "" || call.name = .other "" then known
      else (call.id, call.name, call.args) :: known)
    calls

/-- One round of the loop over the messages. -/
def scanMessage (scan : LedgerScan) (message : Message) (sequence : Nat) : LedgerScan :=
  let known := announce scan.calls message.toolCalls
  let scan := { scan with calls := known }
  match known.lookup message.toolCallId with
  | none => scan
  | some (name, args) =>
    match message.content with
    | .text raw => attempted scan ⟨name, args, none, sequence, raw⟩
    | .object result =>
      recordResult (attempted scan ⟨name, args, some result, sequence, ""⟩) name result sequence

/-- The loop over the messages, from the message at `sequence` on. -/
def scanFrom : LedgerScan → Nat → List Message → LedgerScan
  | scan, _, [] => scan
  | scan, sequence, message :: rest =>
    scanFrom (scanMessage scan message sequence) (sequence + 1) rest

end ExecutionLedger

/-- `build_execution_ledger`. -/
def buildExecutionLedger (messages : List Message) : ExecutionLedger :=
  (ExecutionLedger.scanFrom {} 0 messages).ledger

end MrAgent
