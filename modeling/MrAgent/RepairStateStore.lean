import MrAgent.ActionMergeLaws
import MrAgent.CardVerdict

namespace MrAgent

/-!
# The stored repair state

A repair task keeps its state as one JSON text. Reading it back cleans the
texts of the explanations and of the actions once more. Like the document of an
action, those of an explanation and of a category result are given by what `str`
and `int` make of their members.
-/

/-! ## Decoded values -/

inductive PyFloat where
  | finite (value : Rat)
  | infinite (negative : Bool)
  | nan
deriving DecidableEq

/-- A decoded value; the objects in it are records of one kind, and `filled` unless they are `{}`. -/
inductive Json (Record : Type) where
  | null
  | bool (value : Bool)
  | int (value : Int)
  | float (value : PyFloat)
  | str (text : String)
  | arr (items : List (Json Record))
  | obj (record : Record) (filled : Bool)

/-- An object where none is expected: its `str` and its keys. -/
structure Mapping where
  text : String
  keys : List String

namespace Json

variable {Record : Type}

/-- `bool(value)`. -/
def truthy : Json Record → Bool
  | null => false
  | bool value => value
  | int value => value ≠ 0
  | float value => value ≠ .finite 0
  | str text => text ≠ ""
  | arr items => !items.isEmpty
  | obj _ filled => filled

/-- `value or other`. -/
def orElse (value other : Json Record) : Json Record :=
  if value.truthy then value else other

def record? : Json Record → Option Record
  | obj record _ => some record
  | _ => none

/-- The records among what `value or ()` runs through. -/
def records (value : Json Record) : Option (List Record) :=
  match value.orElse (arr []) with
  | str _ | obj _ _ => some []
  | arr items => some (items.filterMap record?)
  | _ => none

/-- What `value or ()` runs through. -/
def items (value : Json Mapping) : Option (List (Json Mapping)) :=
  match value.orElse (arr []) with
  | str text => some (text.toList.map fun c => str (String.ofList [c]))
  | arr items => some items
  | obj record _ => some (record.keys.map str)
  | _ => none

/-- A member of an enumeration of texts. -/
def member {α : Type} (all : List α) (value : α → String) (default : α) (json : Json Mapping) :
    Option α :=
  if json.truthy then
    match json with
    | str text => all.find? (value · = text)
    | _ => none
  else some default

def ofFloat : Option PyFloat → Json Record
  | none => null
  | some value => float value

def ofRecords (records : List Record) : Json Record :=
  arr (records.map (obj · true))

end Json

/-- What the state takes from Python, also on values that are not of the expected kind. -/
structure RepairStateEnv (Evidence : Type) extends RepairTextEnv where
  str : Json Mapping → String
  /-- `none` is the raised error. -/
  int : Json Mapping → Option Int
  float : Json Mapping → Option PyFloat
  /-- The URL has a host and the scheme `http` or `https`. -/
  isWebUrl : String → Bool
  /-- A record holds a float that is no number. -/
  holdsNan : Evidence → Bool
  str_text : ∀ text, str (.str text) = text
  int_number : ∀ number, int (.int number) = some number
  float_number : ∀ number, float (.float number) = some number

/-! ## The state -/

/-- `PipelineRepairPhase`. -/
def PipelineRepairPhase.value : PipelineRepairPhase → String
  | .pending => "pending"
  | .triageRunning => "triage_running"
  | .triageWaiting => "triage_waiting"
  | .formatRunning => "format_running"
  | .formatWaiting => "format_waiting"
  | .coverageRunning => "coverage_running"
  | .coverageWaiting => "coverage_waiting"
  | .coverageRollbackRunning => "coverage_rollback_running"
  | .coverageRollbackWaiting => "coverage_rollback_waiting"
  | .terminal => "terminal"

def PipelineRepairPhase.all : List PipelineRepairPhase :=
  [.pending, .triageRunning, .triageWaiting, .formatRunning, .formatWaiting, .coverageRunning,
    .coverageWaiting, .coverageRollbackRunning, .coverageRollbackWaiting, .terminal]

/-- `CoverageContinuationPhase`. -/
inductive CoveragePhase where
  | notStarted
  | enhancing
  | waiting
  | rollingBack
  | rollbackWaiting
  | completed
deriving DecidableEq

namespace CoveragePhase

def value : CoveragePhase → String
  | notStarted => "not_started"
  | enhancing => "enhancing"
  | waiting => "waiting"
  | rollingBack => "rolling_back"
  | rollbackWaiting => "rollback_waiting"
  | completed => "completed"

def all : List CoveragePhase :=
  [notStarted, enhancing, waiting, rollingBack, rollbackWaiting, completed]

end CoveragePhase

/-- The fields of the state that are texts. -/
inductive StateText where
  | latestPipelineSha | terminalAttemptId | terminalProofSha | terminalProofStatus
  | finalPipelineStatus | finalCoverageSource | finalCoverageStatus | terminalError
  | terminalFailureKind | terminalValidationErrorCode | terminalValidationSummary
  | repairOutcome | blockerType | blockerSummary | blockerSuggestedAction
  | coverageSkipReason | coverageBaselineSha | coverageEnhancementSha | coverageRollbackSha
  | coverageResult | coverageFailureReason

/-- The fields that are numbers. -/
inductive StateNumber where
  | rootPipelineId | latestPipelineId | terminalProofPipelineId
  | normalizedDiagnosticAliasCount | iterations | maxIterations | verifiedSelectedSuccessCount
  | formatRound | coverageAttempts | coverageBaselinePipelineId | coverageJobId
deriving DecidableEq

/-- The fields that are tuples of texts. -/
inductive StateTexts where
  | completedSteps | failedJobNames | selectedCategories | effectiveCategories
  | sourceFailedJobNames | blockedJobNames | introducedFailureCategories
  | introducedFailedJobNames | formatReportFingerprints
deriving DecidableEq

/-- The fields that are coverages. -/
inductive StateCoverage where
  | finalCoverage | coverageBefore | coverageAfter | coverageThreshold
deriving DecidableEq

namespace StateNumber

def all : List StateNumber :=
  [rootPipelineId, latestPipelineId, terminalProofPipelineId, normalizedDiagnosticAliasCount,
    iterations, maxIterations, verifiedSelectedSuccessCount, formatRound, coverageAttempts,
    coverageBaselinePipelineId, coverageJobId]

theorem mem_all (field : StateNumber) : field ∈ all := by
  cases field <;> decide

end StateNumber

namespace StateTexts

def all : List StateTexts :=
  [completedSteps, failedJobNames, selectedCategories, effectiveCategories, sourceFailedJobNames,
    blockedJobNames, introducedFailureCategories, introducedFailedJobNames,
    formatReportFingerprints]

theorem mem_all (field : StateTexts) : field ∈ all := by
  cases field <;> decide

end StateTexts

namespace StateCoverage

def all : List StateCoverage :=
  [finalCoverage, coverageBefore, coverageAfter, coverageThreshold]

theorem mem_all (field : StateCoverage) : field ∈ all := by
  cases field <;> decide

end StateCoverage

/-- The fields that are truth values. -/
inductive StateFlag where
  | autoFormatCleanup | autoRollbackRequired | formatLastExactReportApplied

/-- `CategoryRepairResult`, as it is read from a text. -/
structure StoredCategoryResult where
  category : String := "unknown"
  outcome : CategoryRepairOutcome := .unverified
  selection : String := "not_selected"
  sourceFailedJobNames : List String := []
  validationFailedJobNames : List String := []
  verifiedRepairedJobNames : List String := []
  reason : String := ""

/-- `PipelineRepairState`. -/
@[ext]
structure RepairState (Evidence : Type) where
  phase : PipelineRepairPhase := .pending
  coveragePhase : CoveragePhase := .notStarted
  text : StateText → String := fun _ => ""
  number : StateNumber → Int := fun _ => 0
  texts : StateTexts → List String := fun _ => []
  coverage : StateCoverage → Option PyFloat := fun _ => none
  flag : StateFlag → Bool := fun _ => false
  sourceFailureExplanations : List FailureExplanation := []
  failureExplanations : List FailureExplanation := []
  repairActions : List DetailedAction := []
  dependencyEvidence : List Evidence := []
  categoryResults : List StoredCategoryResult := []

/-- The object that the text of a state holds. -/
structure StateDocument (Evidence : Type) where
  (phase coveragePhase : Json Mapping := .null)
  text : StateText → Json Mapping := fun _ => .null
  number : StateNumber → Json Mapping := fun _ => .null
  texts : StateTexts → Json Mapping := fun _ => .null
  coverage : StateCoverage → Json Mapping := fun _ => .null
  flag : StateFlag → Json Mapping := fun _ => .null
  (sourceFailureExplanations failureExplanations : Json FailureExplanation := .null)
  repairActions : Json DetailedAction := .null
  dependencyEvidence : Json Evidence := .null
  categoryResults : Json StoredCategoryResult := .null

/-- The bound on a text of the state. -/
def StateText.limit : StateText → Option Nat
  | terminalValidationErrorCode => some 80
  | terminalValidationSummary => some 500
  | _ => none

/-- `text[:limit]`. -/
def StateText.cut (field : StateText) (text : String) : String :=
  match field.limit with
  | none => text
  | some limit => String.ofList (text.toList.take limit)

/-- The count of aliases is not negative. -/
def StateNumber.bounded : StateNumber → Int → Int
  | normalizedDiagnosticAliasCount, value => max 0 value
  | _, value => value

/-- The value of every field, unless reading one raises an error. -/
def readFields
    {Field α : Type}
    {all : List Field}
    (complete : ∀ field, field ∈ all)
    (read : Field → Option α) : Option (Field → α) :=
  if known : ∀ field ∈ all, (read field).isSome then
    some fun field => (read field).get (known field (complete field))
  else none

namespace RepairStateEnv

variable {Evidence : Type} (env : RepairStateEnv Evidence)

/-- `float(value) if value not in {None, ""} else None`. -/
def readCoverage (value : Json Mapping) : Option (Option PyFloat) :=
  match value with
  | .null => some none
  | .arr _ | .obj _ _ => none
  | .str text => if text = "" then some none else (env.float value).map some
  | _ => (env.float value).map some

/-- `_safe_job_url`. -/
def safeJobUrl (value : String) : String :=
  let url := env.sanitizeFailureText value 300
  if env.isWebUrl url then url else ""

/-- `FailureExplanation.from_dict`. -/
def readExplanation (record : FailureExplanation) : FailureExplanation where
  jobName := textOr (env.sanitizeFailureText record.jobName 120) "unknown"
  jobUrl := env.safeJobUrl record.jobUrl
  confirmedReason := env.sanitizeFailureText record.confirmedReason 300
  possibleReason := env.sanitizeFailureText record.possibleReason 300
  suggestedAction := env.sanitizeFailureText record.suggestedAction 200
  pipelineId := record.pipelineId
  jobId := record.jobId
  traceLine := record.traceLine
  confidence := oneOf confidenceValues "unknown" record.confidence
  observedAt := env.sanitizeFailureText record.observedAt 64

/-- `PipelineRepairState.from_json`; `none` is the empty text. -/
def fromJson : Option (StateDocument Evidence) → Option (RepairState Evidence)
  | none => some {}
  | some decoded => do
    let phase ← decoded.phase.member PipelineRepairPhase.all (·.value) .pending
    let coveragePhase ← decoded.coveragePhase.member CoveragePhase.all (·.value) .notStarted
    let number ← readFields StateNumber.mem_all fun field =>
      env.int ((decoded.number field).orElse (.int 0))
    let texts ← readFields StateTexts.mem_all fun field => (decoded.texts field).items
    let coverage ← readFields StateCoverage.mem_all fun field =>
      env.readCoverage (decoded.coverage field)
    let sourceFailureExplanations ← decoded.sourceFailureExplanations.records
    let failureExplanations ← decoded.failureExplanations.records
    let repairActions ← decoded.repairActions.records
    let dependencyEvidence ← decoded.dependencyEvidence.records
    let categoryResults ← decoded.categoryResults.records
    return {
      phase := phase
      coveragePhase := coveragePhase
      text := fun field => field.cut (env.str ((decoded.text field).orElse (.str "")))
      number := fun field => field.bounded (number field)
      texts := fun field => (texts field).map env.str
      coverage := coverage
      flag := fun field => (decoded.flag field).truthy
      sourceFailureExplanations := sourceFailureExplanations.map env.readExplanation
      failureExplanations := failureExplanations.map env.readExplanation
      repairActions := repairActions.map env.readAction
      dependencyEvidence := dependencyEvidence
      categoryResults := categoryResults }

end RepairStateEnv

namespace RepairState

variable {Evidence : Type}

/-- `to_json`. -/
def toJson (state : RepairState Evidence) : StateDocument Evidence where
  phase := .str state.phase.value
  coveragePhase := .str state.coveragePhase.value
  text := fun field => .str (state.text field)
  number := fun field => .int (state.number field)
  texts := fun field => .arr ((state.texts field).map .str)
  coverage := fun field => .ofFloat (state.coverage field)
  flag := fun field => .bool (state.flag field)
  sourceFailureExplanations := .ofRecords state.sourceFailureExplanations
  failureExplanations := .ofRecords state.failureExplanations
  repairActions := .ofRecords state.repairActions
  dependencyEvidence := .ofRecords state.dependencyEvidence
  categoryResults := .ofRecords state.categoryResults

/-- `state == other`, which is false on floats that are no number. -/
def Equals (env : RepairStateEnv Evidence) (state other : RepairState Evidence) : Prop :=
  state = other ∧ (∀ field, state.coverage field ≠ some .nan) ∧
    ∀ record ∈ state.dependencyEvidence, env.holdsNan record = false

/-- The state after some suspensions. -/
def resumed (env : RepairStateEnv Evidence) : Nat → RepairState Evidence → Option (RepairState Evidence)
  | 0, state => some state
  | count + 1, state => (env.fromJson (some state.toJson)).bind (resumed env count)

end RepairState

end MrAgent
