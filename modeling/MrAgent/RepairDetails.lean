import MrAgent.CappedList
import MrAgent.PatchScan
import MrAgent.RepairTerminal

namespace MrAgent

/-!
# Repair actions

`repair_details.py` describes what a repair did as a list of actions. Workers
report an action again whenever they know more about it, as a document or as an
action; a report is merged into the action with its id, or its root cause
group, and the result is read like a stored one.
-/

/-- `RepairAction`. A document has the same members; one that is missing is the default. -/
@[ext]
structure DetailedAction where
  actionId : String := ""
  rootCauseGroupId : String := ""
  categories : List String := []
  jobNames : List String := []
  rootCause : String := ""
  evidence : String := ""
  confidence : String := "unknown"
  measures : List String := []
  changedFiles : List String := []
  solutionSummary : String := ""
  rationale : String := ""
  fileChanges : List RepairFileChange := []
  commitSha : String := ""
  validationPipelineId : Nat := 0
  validationStatus : String := ""
  status : String := "planned"
  failureReason : String := ""
  startedAt : String := ""
  completedAt : String := ""
deriving DecidableEq

/-- `_CONFIDENCE_VALUES`. -/
def confidenceValues : List String :=
  ["confirmed", "inferred", "unknown"]

/-- `_ACTION_STATUS_VALUES`. -/
def actionStatusValues : List String :=
  ["planned", "diagnosing", "editing", "committed", "verified", "failed", "no_changes"]

/-- `_CATEGORY_VALUES`. -/
def categoryValues : List String :=
  ["format", "clang", "build", "unknown"]

/-- A text out of some values, or their default. -/
def oneOf (values : List String) (fallback text : String) : String :=
  if text ∈ values then text else fallback

/-- The empty text is no value. -/
def nonemptyText (text : String) : Option String :=
  if text = "" then none else some text

@[simp]
theorem nonemptyText_eq_some {text value : String} :
    nonemptyText text = some value ↔ text = value ∧ value ≠ "" := by
  unfold nonemptyText
  by_cases empty : text = ""
  · simp only [if_pos empty, reduceCtorEq, false_iff]
    rintro ⟨rfl, filled⟩
    exact filled empty
  · simp only [if_neg empty, Option.some.injEq]
    constructor
    · rintro rfl
      exact ⟨rfl, empty⟩
    · exact And.left

@[simp]
theorem nonemptyText_eq_none {text : String} : nonemptyText text = none ↔ text = "" := by
  simp [nonemptyText]

namespace RepairTextEnv

variable (env : RepairTextEnv)

/-- The texts that `_unique_text` keeps. -/
def keptText (limit : Nat) (value : String) : Option String :=
  nonemptyText (env.sanitizeRepairText value limit)

/-- `_unique_text`. -/
def uniqueText (limit count : Nat) (values : List String) : List String :=
  CappedList.gather (env.keptText limit) count [] values

/-- `RepairDiffHunk.from_dict`; lines of another kind are left out of the document. -/
def readHunk (hunk : RepairDiffHunk) : RepairDiffHunk where
  oldStart := hunk.oldStart
  newStart := hunk.newStart
  header := env.sanitizeRepairText hunk.header 200
  lines := (hunk.lines.take 400).map fun line =>
    { line with content := env.sanitizeRepairText line.content 500 }

/-- `RepairFileChange.from_dict`. -/
def readFileChange (change : RepairFileChange) : Option RepairFileChange :=
  (env.safePath change.path).map fun path =>
    { change with
      path := path
      changeType := oneOf fileChangeTypes "modified" change.changeType
      summary := env.sanitizeRepairText change.summary 400
      hunks := (change.hunks.take 20).map env.readHunk }

/-- `RepairAction.from_dict`. -/
def readAction (value : DetailedAction) : DetailedAction where
  actionId := env.sanitizeRepairText value.actionId 120
  rootCauseGroupId := env.sanitizeRepairText value.rootCauseGroupId 120
  categories := (env.uniqueText 32 4 value.categories).filter (· ∈ categoryValues)
  jobNames := env.uniqueText 120 20 value.jobNames
  rootCause := env.sanitizeRepairText value.rootCause 500
  evidence := env.sanitizeRepairText value.evidence 500
  confidence := oneOf confidenceValues "unknown" value.confidence
  measures := env.uniqueText 400 12 value.measures
  changedFiles := ((value.changedFiles.filterMap env.safePath).eraseDups).take 80
  solutionSummary := env.sanitizeRepairText value.solutionSummary 500
  rationale := env.sanitizeRepairText value.rationale 500
  fileChanges := (value.fileChanges.filterMap env.readFileChange).take 30
  commitSha := env.sanitizeRepairText value.commitSha 64
  validationPipelineId := value.validationPipelineId
  validationStatus := env.sanitizeRepairText value.validationStatus 32
  status := oneOf actionStatusValues "planned" value.status
  failureReason := env.sanitizeRepairText value.failureReason 400
  startedAt := env.sanitizeRepairText value.startedAt 64
  completedAt := env.sanitizeRepairText value.completedAt 64

end RepairTextEnv

namespace DetailedAction

/-- `action_id or root_cause_group_id`. -/
def identity (action : DetailedAction) : String :=
  textOr action.actionId action.rootCauseGroupId

/-- The texts that an update does not carry over. -/
def placeholders : List String :=
  ["", "unknown", "planned"]

/-- A scalar after an update. -/
def updated (previous update : String) : String :=
  if update ∈ placeholders then previous else update

/-- The document that a merge builds of an action and an update. -/
def overlay (previous update : DetailedAction) : DetailedAction where
  actionId := updated previous.actionId update.actionId
  rootCauseGroupId := updated previous.rootCauseGroupId update.rootCauseGroupId
  categories := previous.categories ++ update.categories
  jobNames := previous.jobNames ++ update.jobNames
  rootCause := updated previous.rootCause update.rootCause
  evidence := updated previous.evidence update.evidence
  confidence := updated previous.confidence update.confidence
  measures := previous.measures ++ update.measures
  changedFiles := previous.changedFiles ++ update.changedFiles
  solutionSummary := updated previous.solutionSummary update.solutionSummary
  rationale := updated previous.rationale update.rationale
  fileChanges := if update.fileChanges = [] then previous.fileChanges else update.fileChanges
  commitSha := updated previous.commitSha update.commitSha
  validationPipelineId :=
    if update.validationPipelineId = 0 then previous.validationPipelineId
    else update.validationPipelineId
  validationStatus := updated previous.validationStatus update.validationStatus
  status := updated previous.status update.status
  failureReason := updated previous.failureReason update.failureReason
  startedAt := updated previous.startedAt update.startedAt
  completedAt := updated previous.completedAt update.completedAt

end DetailedAction

/-- An update is an action or a document. -/
inductive RawUpdate where
  | action (action : DetailedAction)
  | document (value : DetailedAction)
deriving DecidableEq

/-- `raw_update if isinstance(raw_update, RepairAction) else RepairAction.from_dict(raw_update)`. -/
def RawUpdate.read (env : RepairTextEnv) : RawUpdate → DetailedAction
  | .action known => known
  | .document value => env.readAction value

/-- The key of an action without an identity. -/
def positionKey (index : Nat) : String :=
  "position:" ++ toString index

/-- The variables of the loop. -/
structure ActionMerge where
  output : List DetailedAction
  positions : String → Option Nat

namespace ActionMerge

/-- `positions[key] = index`. -/
def place (positions : String → Option Nat) (key : String) (index : Nat) : String → Option Nat :=
  Function.update positions key (some index)

/-- `positions` of the existing actions. -/
def positionsOf (current : List DetailedAction) : String → Option Nat :=
  current.zipIdx.foldl
    (fun positions entry =>
      place positions (textOr entry.1.identity (positionKey entry.2)) entry.2)
    fun _ => none

/-- The body of the loop. -/
def step (env : RepairTextEnv) (s : ActionMerge) (raw : RawUpdate) : ActionMerge :=
  let update := raw.read env
  let position := if update.identity = "" then none else s.positions update.identity
  match position with
  | none =>
    { output := s.output ++ [update]
      positions :=
        place s.positions (textOr update.identity (positionKey s.output.length)) s.output.length }
  | some index =>
    match s.output[index]? with
    | some previous =>
      { s with output := s.output.set index (env.readAction (previous.overlay update)) }
    | none => s

end ActionMerge

/-- `merge_repair_actions`. -/
def mergeRepairActions
    (env : RepairTextEnv)
    (current : List DetailedAction)
    (updates : List RawUpdate) : List DetailedAction :=
  (updates.foldl (ActionMerge.step env)
    { output := current, positions := ActionMerge.positionsOf current }).output

end MrAgent
