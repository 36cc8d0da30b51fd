import Mathlib
import MrAgent.KeySort
import MrAgent.ProposalValidator

namespace MrAgent.PromptEvolution

open FallibleProgram KeySort

/-!
# Batches of the skill optimizer

`build_optimization_batch` splits the evidence of the candidates by merge
request: the evidence of some merge requests is held back for the selection,
together with controls from others, and the rest is for training.
-/

inductive Outcome where
  | accepted
  | rejected
  | unhandled
  | pending
  | invalid
deriving DecidableEq

structure Evidence where
  suggestionId : String
  project : String
  mrIid : String
  mrUrl : String
  createdAt : String
  filePath : String
  label : String
  summary : String
  suggestionContent : String
  outcome : Outcome
  weight : Rat
  globalPromptSetHash : String
  promptBundleHash : String
  projectRulesHash : String := ""
  projectSkillHash : String := ""
  projectSkillManifestHash : String := ""
  projectSkillTargetSha : String := ""
  projectSkillStatus : String := ""
  projectSkillRuleIds : List String := []
  projectSkillReferenceHashes : List (String × String) := []
  feedback : List String := []
  existingCode : String := ""
  improvedCode : String := ""
  commitSha : String := ""
  lineStart : Int := 0
  lineEnd : Int := 0
  caseKind : String := ""
  expectedAction : String := ""
  reviewId : String := ""
  replayable : Bool := false
deriving DecidableEq

structure WeightedCluster where
  clusterKey : String
  evidence : List Evidence
  positiveWeight : Rat
  negativeWeight : Rat
  negativeRatio : Rat
deriving DecidableEq

structure EligibleCandidate where
  candidateId : String
  scope : CandidateScope
  project : Option String
  sourcePromptHash : String
  cluster : WeightedCluster
deriving DecidableEq

structure SkillOptimizationBatch where
  project : String
  baseManifestHash : String
  trainingCandidates : List EligibleCandidate
  selectionCases : List Evidence
  controlIds : List String
  splitHash : String
deriving DecidableEq

/-- `split_payload`. -/
structure SplitPayload where
  project : String
  baseManifestHash : String
  candidateIds : List String
  trainingIds : List String
  selectionIds : List String
  controlIds : List String

/-- What the optimizer takes from Python. -/
structure BatchEnv where
  sha256 : String → String
  /-- `json.dumps` with sorted keys. -/
  dumps : SplitPayload → String
  /-- The order in which a set of the given texts is iterated. -/
  iterate : List String → List String
  iterate_perm : ∀ texts, (iterate texts).Perm texts.dedup
  /-- `math.ceil` of a product of floating-point numbers. -/
  ceilProduct : Nat → Rat → Int
  /-- A sum and a quotient of floating-point numbers. -/
  sum : List Rat → Rat
  quotient : Rat → Rat → Rat

/-- The arguments of `build_optimization_batch` beside the evidence. -/
structure BatchLimits where
  project : String
  baseManifestHash : String
  selectionRatio : Rat
  minTrainMrs : Int
  minSelectionMrs : Int
  minControlCases : Int
  maxSelectionCases : Int

/-! ## The parts of the batch -/

namespace BatchEnv

variable (env : BatchEnv)

/-- `_stable_hash`. -/
def stableHash (parts : List String) : String :=
  env.sha256 ("\n".intercalate parts)

end BatchEnv

/-- `_is_current_version`. -/
def isCurrentVersion (evidence : Evidence) (baseManifestHash : String) : Bool :=
  evidence.projectSkillManifestHash ≠ "" && evidence.projectSkillManifestHash = baseManifestHash

/-- One entry of the dictionary; an entry with the same id is the same evidence. -/
def keepEvidence (result : List Evidence) (item : Evidence) : Except String (List Evidence) :=
  match result.find? (·.suggestionId = item.suggestionId) with
  | some existing => do
    raiseIf (existing ≠ item) s!"conflicting evidence for suggestion ID {item.suggestionId}"
    return result
  | none => return result ++ [item]

/-- `_deduplicate_evidence`. -/
def deduplicateEvidence (evidence : List Evidence) : Except String (List Evidence) := do
  let ordered := sortedBy (fun item => toLex (item.suggestionId, item.createdAt)) evidence
  let result ← ordered.foldlM keepEvidence []
  return sortedBy (·.suggestionId) result

namespace BatchEnv

variable (env : BatchEnv)

/-- The weight of the evidence with some outcomes. -/
def weightOf (outcomes : List Outcome) (evidence : List Evidence) : Rat :=
  env.sum ((evidence.filter (·.outcome ∈ outcomes)).map (·.weight))

/-- What is left of a candidate for training. -/
def rebuildCandidate (selectionIds : List String) (candidate : EligibleCandidate) :
    Option EligibleCandidate :=
  let evidence := (sortedBy (·.suggestionId) candidate.cluster.evidence).filter
    (·.suggestionId ∉ selectionIds)
  if evidence = [] then none
  else
    let positive := env.weightOf [.accepted] evidence
    let negative := env.weightOf [.rejected, .unhandled] evidence
    let denominator := env.sum [positive, negative]
    some { candidate with
      cluster := {
        clusterKey := candidate.cluster.clusterKey
        evidence := evidence
        positiveWeight := positive
        negativeWeight := negative
        negativeRatio := if denominator = 0 then 0 else env.quotient negative denominator } }

/-- `_rebuild_training_candidates`. -/
def rebuildTrainingCandidates (candidates : List EligibleCandidate) (selectionIds : List String) :
    List EligibleCandidate :=
  (sortedBy (·.candidateId) candidates).filterMap (env.rebuildCandidate selectionIds)

end BatchEnv

/-- The evidence of some candidates. -/
def evidenceOf (candidates : List EligibleCandidate) : List Evidence :=
  candidates.flatMap (·.cluster.evidence)

/-- The merge requests of some evidence, each once. -/
def mrsOf (evidence : List Evidence) : List String :=
  (evidence.map (·.mrIid)).dedup

/-- The merge requests with a rejected suggestion. -/
def rejectedMrs (target : List Evidence) : List String :=
  (target.filter (·.outcome = .rejected)).map (·.mrIid)

namespace BatchEnv

variable (env : BatchEnv) (limits : BatchLimits)

/-- `desired_selection_mrs`. -/
def desiredSelectionMrs (target : List Evidence) : Int :=
  let count := (mrsOf target).length
  min (max limits.minSelectionMrs (env.ceilProduct count limits.selectionRatio))
    (count - limits.minTrainMrs)

/-- `selection_mrs`. -/
def selectionMrs (target : List Evidence) : List String :=
  let ranked := sortedBy
    (fun mrIid => env.stableHash [limits.project, limits.baseManifestHash, "selection", mrIid])
    (env.iterate (rejectedMrs target))
  ranked.take (env.desiredSelectionMrs limits target).toNat

/-- `selection_targets`. -/
def selectionTargets (target : List Evidence) : List Evidence :=
  target.filter fun item =>
    item.mrIid ∈ env.selectionMrs limits target && item.outcome ∈ [.accepted, .rejected]

/-- The accepted evidence of other merge requests, in the order in which it is taken. -/
def rankedControls (target evidence : List Evidence) : List Evidence :=
  sortedBy
    (fun item =>
      env.stableHash [limits.project, limits.baseManifestHash, "control", item.suggestionId])
    (evidence.filter fun item =>
      item.project = limits.project && item.outcome = .accepted &&
        item.suggestionId ∉ target.map (·.suggestionId) && item.mrIid ∉ mrsOf target &&
        isCurrentVersion item limits.baseManifestHash)

/-- The batch of a split. -/
def assembleBatch
    (candidates training : List EligibleCandidate)
    (selectionTargets controls : List Evidence) : SkillOptimizationBatch :=
  let selectionCases := sortedBy (·.suggestionId) (selectionTargets ++ controls)
  let controlIds := sortedBy id (controls.map (·.suggestionId))
  { project := limits.project
    baseManifestHash := limits.baseManifestHash
    trainingCandidates := training
    selectionCases := selectionCases
    controlIds := controlIds
    splitHash := env.sha256 (env.dumps {
      project := limits.project
      baseManifestHash := limits.baseManifestHash
      candidateIds := sortedBy id (candidates.map (·.candidateId))
      trainingIds := sortedBy id ((evidenceOf training).map (·.suggestionId))
      selectionIds := selectionCases.map (·.suggestionId)
      controlIds := controlIds }) }

/-- `build_optimization_batch`. -/
def buildOptimizationBatch (candidates : List EligibleCandidate) (projectEvidence : List Evidence) :
    Except String SkillOptimizationBatch := do
  raiseIf (candidates = []) "no candidate evidence"
  raiseIf (!(0 < limits.selectionRatio && limits.selectionRatio < 1))
    "selection_ratio must be between zero and one"
  raiseIf (limits.minTrainMrs < 1 || limits.minSelectionMrs < 1 || limits.maxSelectionCases < 2)
    "invalid train/selection limits"
  raiseIf ((evidenceOf candidates).any fun item =>
      item.project ≠ limits.project || !isCurrentVersion item limits.baseManifestHash)
    "candidate evidence is not from the current-version Skill"
  let target ← deduplicateEvidence (evidenceOf candidates)
  raiseIf ((mrsOf target).length < limits.minTrainMrs + limits.minSelectionMrs ||
      (rejectedMrs target).dedup.length < limits.minSelectionMrs)
    "not enough MR groups for train/selection isolation"
  let selectionMrs := env.selectionMrs limits target
  raiseIf (selectionMrs.length < limits.minSelectionMrs)
    "not enough rejected MR groups for selection"
  let selectionTargets := env.selectionTargets limits target
  raiseIf (limits.maxSelectionCases < selectionTargets.length + limits.minControlCases)
    "hidden selection cases exceed the configured case limit"
  let training := env.rebuildTrainingCandidates candidates (selectionTargets.map (·.suggestionId))
  let trainingMrs := mrsOf (evidenceOf training)
  raiseIf (trainingMrs.length < limits.minTrainMrs || trainingMrs.any (· ∈ selectionMrs))
    "train/selection MR isolation could not be satisfied"
  let evidence ← deduplicateEvidence projectEvidence
  let controls := (env.rankedControls limits target evidence).take
    (max 0 (limits.maxSelectionCases - selectionTargets.length)).toNat
  raiseIf (controls.length < limits.minControlCases)
    "not enough accepted current-version control cases"
  return env.assembleBatch limits candidates training selectionTargets controls

end BatchEnv

end MrAgent.PromptEvolution
