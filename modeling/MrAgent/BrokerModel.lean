import Mathlib

namespace MrAgent

/-!
# Data model of the distributed broker

The records below follow `pr_agent/distributed/models.py` and
`pr_agent/triage/repair_rollback.py`. The Lua scripts use the empty string as
their "no task" and "no worker" sentinel, so identifiers are nonempty by
construction and the sentinel is `none`. JSON documents that a script decodes
are records here: equality of records is equality of the canonical texts.
Timestamps are rationals because the scripts only compare and store them.
-/

-- `Char` is a finite type in Mathlib; a statement about the members of a list is decided along
-- the list all the same.
instance (priority := 1100) decidableForallMem {α : Type} (p : α → Prop) [DecidablePred p]
    (items : List α) : Decidable (∀ item, item ∈ items → p item) :=
  List.decidableBAll p items

instance (priority := 1100) decidableExistsMem {α : Type} (p : α → Prop) [DecidablePred p]
    (items : List α) : Decidable (∃ item, item ∈ items ∧ p item) :=
  List.decidableBEx p items

/-- Seconds since the epoch, as stored by `time.time()`. -/
abbrev Time := Rat

/-- The characters for which `str.isspace` holds. -/
def isSpace (c : Char) : Bool :=
  (9 ≤ c.toNat && c.toNat ≤ 13) || (28 ≤ c.toNat && c.toNat ≤ 32) ||
    c.toNat ∈ [0x85, 0xa0, 0x1680, 0x2028, 0x2029, 0x202f, 0x205f, 0x3000] ||
    (0x2000 ≤ c.toNat && c.toNat ≤ 0x200a)

/-- `str.strip()` on the characters of a text. -/
def strip (text : List Char) : List Char :=
  ((text.dropWhile isSpace).reverse.dropWhile isSpace).reverse

/-- Task identifier; the empty string is never a task. -/
structure TaskId where
  text : String
  nonempty : text ≠ ""
deriving DecidableEq

/-- Worker identifier; the empty string is never a worker. -/
structure WorkerId where
  text : String
  nonempty : text ≠ ""
deriving DecidableEq

/-- Identifier of a Feishu triage card. -/
abbrev CardId := String

/-- `MrKey`: the constructor rejects an empty project and a non-positive iid. -/
structure MrKey where
  projectId : String
  iid : Nat
  projectNonempty : projectId ≠ ""
  iidPositive : 0 < iid
deriving DecidableEq

/-- `urllib.parse.quote(text, safe='')` on one byte of the UTF-8 encoding. -/
def quoteByte (byte : UInt8) : List Char :=
  let c := Char.ofNat byte.toNat
  if byte < 128 && (c.isAlphanum || c ∈ ['_', '.', '-', '~']) then [c]
  else ['%', (Nat.digitChar (byte.toNat / 16)).toUpper, (Nat.digitChar (byte.toNat % 16)).toUpper]

/-- `MrKey.redis_id`: the percent-encoded project, a colon and the iid. -/
def MrKey.redisId (mr : MrKey) : String :=
  String.ofList (mr.projectId.toUTF8.toList.flatMap quoteByte) ++ ":" ++ toString mr.iid

/--
Redis keys of one merge request. Tasks without a merge request share the
`no-mr` keys, which are the keys of `none`.
-/
abbrev MrScope := Option MrKey

/-- `MrLease`: the owner and fencing token a worker believes it holds. -/
structure MrLease where
  mr : MrKey
  workerId : WorkerId
  fencingToken : Nat
deriving DecidableEq

inductive TaskStatus where
  | queued
  | assigned
  | running
  | waitingPipeline
  | pausedByTriage
  | publishing
  | completed
  | failed
  | canceled
deriving DecidableEq

namespace TaskStatus

/-- Membership in `TERMINAL_TASK_STATUSES`. -/
def terminal : TaskStatus → Bool
  | completed | failed | canceled => true
  | _ => false

end TaskStatus

inductive TaskKind where
  | prCommand
  | autoWorkflow
  | gitlabEvent
  | repairRollback
  | repairReport
  | postRepairUt
deriving DecidableEq

inductive DeliveryKind where
  | execute
  | resumePipeline
  | resumeAuto
deriving DecidableEq

inductive TriageCardState where
  | pipelineFailed
  | repairQueued
  | repairRunning
  | waitingPipeline
  | repairSucceeded
  | repairPartial
  | repairBlocked
  | repairModelUnavailable
  | repairFailed
  | canceling
  | canceled
  | rollbackQueued
  | rollbackRunning
  | rollbackSucceeded
  | rollbackFailed
deriving DecidableEq

inductive RepairCategory where
  | pipeline
  | format
  | clang
  | build
  | unknown
deriving DecidableEq

/-- The text under which a category is serialized. -/
def RepairCategory.value : RepairCategory → String
  | pipeline => "pipeline"
  | format => "format"
  | clang => "clang"
  | build => "build"
  | unknown => "unknown"

inductive RepairItemStatus where
  | pending
  | queued
  | running
  | waitingPipeline
  | succeeded
  | blocked
  | failed
  | resolved
deriving DecidableEq

inductive PostRepairUTStatus where
  | idle
  | queued
  | running
  | waitingPipeline
  | succeeded
  | partially
  | unverified
  | failed
  | canceling
  | canceled
  | rollbackFailed
deriving DecidableEq

inductive RepairRollbackStatus where
  | queued
  | validating
  | reverting
  | committing
  | pushing
  | succeeded
  | failed
deriving DecidableEq

/-- The five triggers of a repair rollback, and any other text. -/
inductive RollbackTrigger where
  | postRepair
  | cancel
  | autoFailure
  | postRepairUtFailure
  | postRepairUtCancel
  | other (text : String)
deriving DecidableEq

namespace RollbackTrigger

/-- The two triggers that act on the unit-test section of a card. -/
def postRepairUt : RollbackTrigger → Bool
  | postRepairUtFailure | postRepairUtCancel => true
  | _ => false

end RollbackTrigger

inductive RepairReportStatus where
  | notApplicable
  | queued
  | generating
  | modelGenerated
  | fallback
deriving DecidableEq

/-- Membership in `REPORT_TERMINAL_STATUSES`. -/
def RepairReportStatus.terminal : RepairReportStatus → Bool
  | modelGenerated | fallback | notApplicable => true
  | _ => false

/-- Fields of the envelope's `payload` object that the broker reads. -/
structure TaskPayload where
  sourcePipelineId : Option Nat := none
  sourcePipelineSha : String := ""
  repairCategory : String := ""
  selectedCategories : List String := []
  repairTaskId : Option TaskId := none
deriving DecidableEq

/-- `TaskEnvelope`; the schema version is constant and left out. -/
structure TaskEnvelope where
  taskId : TaskId
  kind : TaskKind
  source : String
  mr : Option MrKey
  prUrl : String
  command : String
  payload : TaskPayload
  idempotencyKey : String
  createdAt : Time
deriving DecidableEq

/-- `PipelineEvent`, the webhook record published per project and SHA. -/
structure PipelineEvent where
  projectId : String
  pipelineId : Nat
  sha : String
  status : String
  ref : String
  occurredAt : String
  source : String := ""
deriving DecidableEq

namespace PipelineEvent

/-- `str.lower` on the characters that occur in a terminal text: the ASCII capitals and the Kelvin
sign. No other character becomes one of them. -/
def lowerChar (c : Char) : Char :=
  if c = '\u212A' then 'k' else c.toLower

/-- The status text lowered as Python lowers it. -/
def loweredStatus (event : PipelineEvent) : List Char :=
  event.status.toList.map lowerChar

/-- `PipelineEvent.terminal`, decided in Python before the publish script runs. -/
def terminal (event : PipelineEvent) : Bool :=
  event.loweredStatus ∈
    ["canceled".toList, "failed".toList, "skipped".toList, "success".toList]

/-- The exact comparison that the register and resume scripts make in Lua. -/
def luaTerminal (event : PipelineEvent) : Bool :=
  event.status ∈ ["success", "failed", "canceled", "skipped"]

end PipelineEvent

/--
Identity of a pipeline event key and of the waiter set that belongs to it:
`pipeline_event(project, sha, pipeline_id)` and `pipeline_waiters(...)`.
-/
structure WaitKey where
  projectId : String
  sha : String
  pipelineId : Option Nat
deriving DecidableEq

/-- `RepairItem`, one row of a triage card. -/
structure RepairItem where
  category : RepairCategory
  command : String
  label : String
  status : RepairItemStatus
  taskId : Option TaskId := none
  pipelineId : Nat := 0
  pipelineSha : String := ""
  resultPipelineId : Nat := 0
  resultPipelineSha : String := ""
  statusMarkdown : String := ""
deriving DecidableEq

/-- `PostRepairUTState`, the unit-test section of a triage card. -/
structure PostRepairUTState where
  status : PostRepairUTStatus := .idle
  taskId : Option TaskId := none
  originRepairTaskId : Option TaskId := none
  baselinePipelineId : Nat := 0
  baselineSha : String := ""
  coverageBefore : Option Rat := none
  currentPipelineId : Nat := 0
  currentSha : String := ""
  coverageAfter : Option Rat := none
  statusMarkdown : String := ""
  outcomeReason : String := ""
  rollbackTaskId : Option TaskId := none
  rollbackStatus : Option RepairRollbackStatus := none
  rollbackCommitSha : String := ""
deriving DecidableEq

/-- `RepairCommitEntry`, one pushed commit of a repair. -/
structure RepairCommitEntry where
  sequence : Nat
  commitSha : String
  parentSha : String
  treeSha : String
  effectId : String
  taskMarker : String
  pushedAt : String
deriving DecidableEq

/-- `RepairCommitManifest`, the durable chain of commits one repair pushed. -/
structure RepairCommitManifest where
  schemaVersion : Nat := 1
  repairTaskId : TaskId
  projectId : String
  mrIid : Nat
  sourceBranch : String
  baseCommitSha : String
  baseTreeSha : String
  authorizedActorId : String
  entries : List RepairCommitEntry := []
  frozen : Bool := false
  frozenAt : String := ""
deriving DecidableEq

/-- `RepairRollbackState`, copied into both tasks of a rollback. -/
structure RepairRollbackState where
  rollbackTaskId : TaskId
  repairTaskId : TaskId
  status : RepairRollbackStatus
  trigger : RollbackTrigger
  requestedBy : String
  expectedRemoteHead : String
  rollbackCommitSha : String := ""
  failureMessage : String := ""
deriving DecidableEq

/-- `FinalRepairReportState`, the fields the report scripts compare. -/
structure FinalRepairReportState where
  status : RepairReportStatus
  reportTaskId : Option TaskId := none
  inputDigest : String := ""
deriving DecidableEq

inductive PipelineRepairPhase where
  | pending
  | triageRunning
  | triageWaiting
  | formatRunning
  | formatWaiting
  | coverageRunning
  | coverageWaiting
  | coverageRollbackRunning
  | coverageRollbackWaiting
  | terminal
deriving DecidableEq

/-- `RepairAction`, the commit it produced and the pipeline that validated it. -/
structure RepairAction where
  commitSha : String := ""
  validationPipelineId : Nat := 0
  validationStatus : String := ""
deriving DecidableEq

/-- `PipelineRepairState`, the fields the rollback admission and the terminal record read. -/
structure PipelineRepairState where
  autoRollbackRequired : Bool := false
  verifiedSelectedSuccessCount : Option Nat := none
  latestPipelineSha : String := ""
  phase : PipelineRepairPhase := .pending
  latestPipelineId : Nat := 0
  finalPipelineStatus : String := ""
  failedJobNames : List String := []
  terminalError : String := ""
  terminalFailureKind : String := ""
  selectedCategories : List String := []
  repairActions : List RepairAction := []
  repairOutcome : String := ""
deriving DecidableEq

/-- The admission context stored beside a task, as far as a script reads it. -/
structure AdmissionContext where
  cardId : CardId := ""
  openMessageId : String := ""
  category : String := ""
  selectedCategories : List String := []
  pipelineId : Option Nat := none
  pipelineSha : String := ""
  revision : Option Nat := none
  ttlSeconds : Nat := 0
deriving DecidableEq

/-- One entry of a worker's inbox stream. -/
structure InboxMessage where
  messageId : Nat
  taskId : TaskId
  deliveryKind : DeliveryKind
  payload : Option PipelineEvent
deriving DecidableEq

/-- A card notification handed to the notification stream. -/
structure NotificationEnvelope where
  notificationId : String
  content : String
  createdAt : String
deriving DecidableEq

end MrAgent
