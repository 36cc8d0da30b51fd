import Mathlib
import MrAgent.SkillBatch

namespace MrAgent.PromptEvolution

open KeySort

/-!
# The gate of the skill optimizer

`evaluate_skill_gate` compares how the current skill and an edited one decide
the selection cases of a batch. Scores are exact fractions here, also where the
report writes them as decimal texts.
-/

inductive ReplayAction where
  | emit
  | suppress
  | revise
deriving DecidableEq

structure SkillReplayDecision where
  caseId : String
  action : ReplayAction
  reason : String := ""
deriving DecidableEq

structure SkillReplayResult where
  model : String
  decisions : List SkillReplayDecision
deriving DecidableEq

structure SkillOptimizationReport where
  passed : Bool
  action : String
  errors : List String
  checks : List String
  splitHash : String
  replayModel : String
  baselineScore : Rat
  candidateScore : Rat
  baselineAcceptedScore : Rat
  candidateAcceptedScore : Rat
  baselineRejectedScore : Rat
  candidateRejectedScore : Rat
  acceptedControlRegressions : List String
  rejectedTargetRegressions : List String
  editBudget : Int
  editCount : Int
  editSignature : String
deriving DecidableEq

/-- The arguments of `evaluate_skill_gate` beside the batch and the replays. -/
structure GateSettings where
  minimumScoreDelta : Rat
  editBudget : Int
  editCount : Int
  editSignature : String
  rejectedSignatures : List String := []

def SkillOptimizationBatch.selectionIds (batch : SkillOptimizationBatch) : List String :=
  batch.selectionCases.map (·.suggestionId)

namespace SkillReplayResult

variable (result : SkillReplayResult)

/-- `index.get(case_id)`: the last decision counts. -/
def decisionFor (caseId : String) : Option ReplayAction :=
  (result.decisions.reverse.find? (·.caseId = caseId)).map (·.action)

/-- Every case is decided, nothing else is, and nothing is decided twice. -/
def Complete (expected : List String) : Prop :=
  (result.decisions.map (·.caseId)).Nodup ∧
    ∀ caseId, caseId ∈ result.decisions.map (·.caseId) ↔ caseId ∈ expected

/-- `not duplicate and set(index) == expected_ids`. -/
def complete (expected : List String) : Bool :=
  decide (result.decisions.map (·.caseId)).Nodup &&
    (result.decisions.map (·.caseId)).all (· ∈ expected) &&
      expected.all (· ∈ result.decisions.map (·.caseId))

end SkillReplayResult

/-- Whether an action is what the case calls for. -/
def Evidence.correct (item : Evidence) (action : Option ReplayAction) : Bool :=
  if item.expectedAction = "emit" then action = some .emit
  else if item.expectedAction = "revise" then action = some .revise
  else if item.outcome = .accepted then action = some .emit
  else action = some .suppress || action = some .revise

/-- The weight of the cases that are decided correctly. -/
def correctWeight (cases : List Evidence) (decisions : String → Option ReplayAction) : Rat :=
  (cases.map fun item =>
    if item.correct (decisions item.suggestionId) then item.weight else 0).sum

/-- `_score`. -/
def score (cases : List Evidence) (decisions : String → Option ReplayAction) : Rat :=
  let denominator := (cases.map (·.weight)).sum
  if denominator = 0 then 0 else correctWeight cases decisions / denominator

namespace SkillOptimizationBatch

variable (batch : SkillOptimizationBatch)

def acceptedCases : List Evidence :=
  batch.selectionCases.filter (·.outcome = .accepted)

def rejectedCases : List Evidence :=
  batch.selectionCases.filter (·.outcome = .rejected)

variable (baseline candidate : SkillReplayResult) (settings : GateSettings)

/-- The errors of `evaluate_skill_gate`, in the order of its checks. -/
def gateErrors : List String :=
  let before := score batch.selectionCases baseline.decisionFor
  let after := score batch.selectionCases candidate.decisionFor
  errorIf (!baseline.complete batch.selectionIds) "baseline_replay_incomplete" ++
    errorIf (!candidate.complete batch.selectionIds) "candidate_replay_incomplete" ++
    errorIf (baseline.model = "" || baseline.model ≠ candidate.model) "replay_model_mismatch" ++
    errorIf (settings.editBudget < settings.editCount) "textual_learning_rate_exceeded" ++
    errorIf (settings.editSignature ∈ settings.rejectedSignatures) "repeated_rejected_edit" ++
    errorIf (after ≤ before) "score_not_strictly_better" ++
    errorIf (after - before < settings.minimumScoreDelta) "minimum_score_delta_not_met" ++
    errorIf (score batch.acceptedCases candidate.decisionFor <
      score batch.acceptedCases baseline.decisionFor) "accepted_control_regression" ++
    errorIf (score batch.rejectedCases candidate.decisionFor <
      score batch.rejectedCases baseline.decisionFor) "rejected_target_regression"

/-- `evaluate_skill_gate`. -/
def evaluateSkillGate : SkillOptimizationReport :=
  let errors := batch.gateErrors baseline candidate settings
  { passed := errors = []
    action := if errors = [] then "accept_new_best" else "reject"
    errors := sortedBy id errors.dedup
    checks := ["selection_isolation", "same_model_replay", "complete_replay",
      "strict_score_improvement", "accepted_control_non_regression",
      "rejected_target_non_regression", "textual_learning_rate", "rejected_edit_buffer"]
    splitHash := batch.splitHash
    replayModel := if baseline.model = candidate.model then baseline.model else ""
    baselineScore := score batch.selectionCases baseline.decisionFor
    candidateScore := score batch.selectionCases candidate.decisionFor
    baselineAcceptedScore := score batch.acceptedCases baseline.decisionFor
    candidateAcceptedScore := score batch.acceptedCases candidate.decisionFor
    baselineRejectedScore := score batch.rejectedCases baseline.decisionFor
    candidateRejectedScore := score batch.rejectedCases candidate.decisionFor
    acceptedControlRegressions := sortedBy id ((batch.acceptedCases.filter fun item =>
      baseline.decisionFor item.suggestionId = some .emit &&
        candidate.decisionFor item.suggestionId ≠ some .emit).map (·.suggestionId))
    rejectedTargetRegressions := sortedBy id ((batch.rejectedCases.filter fun item =>
      (baseline.decisionFor item.suggestionId = some .suppress ||
        baseline.decisionFor item.suggestionId = some .revise) &&
          candidate.decisionFor item.suggestionId = some .emit).map (·.suggestionId))
    editBudget := settings.editBudget
    editCount := settings.editCount
    editSignature := settings.editSignature }

/-- What a report that has passed stands for. -/
structure Passes : Prop where
  baselineComplete : baseline.Complete batch.selectionIds
  candidateComplete : candidate.Complete batch.selectionIds
  named : baseline.model ≠ ""
  sameModel : baseline.model = candidate.model
  withinBudget : settings.editCount ≤ settings.editBudget
  notRepeated : settings.editSignature ∉ settings.rejectedSignatures
  better : score batch.selectionCases baseline.decisionFor <
    score batch.selectionCases candidate.decisionFor
  delta : settings.minimumScoreDelta ≤ score batch.selectionCases candidate.decisionFor -
    score batch.selectionCases baseline.decisionFor
  acceptedKept : score batch.acceptedCases baseline.decisionFor ≤
    score batch.acceptedCases candidate.decisionFor
  rejectedKept : score batch.rejectedCases baseline.decisionFor ≤
    score batch.rejectedCases candidate.decisionFor

end SkillOptimizationBatch

theorem SkillReplayResult.complete_iff
    {result : SkillReplayResult}
    {expected : List String} :
    result.complete expected = true ↔ result.Complete expected := by
  simp only [complete, Complete, Bool.and_eq_true, decide_eq_true_eq, List.all_eq_true]
  constructor
  · rintro ⟨⟨distinct, known⟩, decided⟩
    exact ⟨distinct, fun caseId => ⟨known caseId, decided caseId⟩⟩
  · rintro ⟨distinct, same⟩
    exact ⟨⟨distinct, fun caseId => (same caseId).mp⟩, fun caseId => (same caseId).mpr⟩

theorem SkillOptimizationBatch.passed_iff
    (batch : SkillOptimizationBatch)
    (baseline candidate : SkillReplayResult)
    (settings : GateSettings) :
    (batch.evaluateSkillGate baseline candidate settings).passed = true ↔
      batch.Passes baseline candidate settings := by
  have checked : (batch.evaluateSkillGate baseline candidate settings).passed = true ↔
      batch.gateErrors baseline candidate settings = [] :=
    decide_eq_true_iff
  rw [checked]
  simp only [gateErrors, List.append_eq_nil_iff, errorIf_eq_nil, Bool.not_eq_false',
    SkillReplayResult.complete_iff, Bool.or_eq_false_iff, decide_eq_false_iff_not, not_lt, not_le,
    not_not]
  constructor
  · rintro ⟨⟨⟨⟨⟨⟨⟨⟨baselineComplete, candidateComplete⟩, named, sameModel⟩, withinBudget⟩,
      notRepeated⟩, better⟩, delta⟩, acceptedKept⟩, rejectedKept⟩
    exact ⟨baselineComplete, candidateComplete, named, sameModel, withinBudget, notRepeated,
      better, delta, acceptedKept, rejectedKept⟩
  · rintro ⟨baselineComplete, candidateComplete, named, sameModel, withinBudget, notRepeated,
      better, delta, acceptedKept, rejectedKept⟩
    exact ⟨⟨⟨⟨⟨⟨⟨⟨baselineComplete, candidateComplete⟩, named, sameModel⟩, withinBudget⟩,
      notRepeated⟩, better⟩, delta⟩, acceptedKept⟩, rejectedKept⟩

/-! ## One better decision -/

/-- A decision is correct when every selection case with its id calls for its action. -/
def SkillOptimizationBatch.CorrectDecision
    (batch : SkillOptimizationBatch)
    (decision : SkillReplayDecision) : Prop :=
  ∀ item ∈ batch.selectionCases, item.suggestionId = decision.caseId →
    item.correct (some decision.action) = true

section BetterDecision

variable {model : String} {front back : List SkillReplayDecision} {old new : SkillReplayDecision}

theorem decisionFor_replaced
    (sameCase : new.caseId = old.caseId)
    (distinct : ((front ++ old :: back).map (·.caseId)).Nodup)
    (caseId : String) :
    SkillReplayResult.decisionFor ⟨model, front ++ new :: back⟩ caseId =
      if caseId = old.caseId then some new.action
      else SkillReplayResult.decisionFor ⟨model, front ++ old :: back⟩ caseId := by
  rw [List.map_append, List.map_cons, List.nodup_append] at distinct
  have behind := (List.nodup_cons.mp distinct.2.1).1
  simp only [SkillReplayResult.decisionFor, List.reverse_append, List.reverse_cons,
    List.find?_append]
  split
  · rename_i same
    have absent : back.reverse.find? (fun decision => decision.caseId = caseId) = none := by
      refine List.find?_eq_none.mpr fun decision member => ?_
      rw [decide_eq_true_eq]
      rintro rfl
      rw [← same] at behind
      exact behind (List.mem_map_of_mem (List.mem_reverse.mp member))
    rw [absent]
    simp [sameCase, same]
  · rename_i other
    have otherOld : ¬ old.caseId = caseId := fun same => other same.symm
    have otherNew : ¬ new.caseId = caseId := by rwa [sameCase]
    simp [otherOld, otherNew]

theorem score_le_score
    {cases : List Evidence}
    {before after : String → Option ReplayAction}
    (positive : ∀ item ∈ cases, 0 < item.weight)
    (kept : ∀ item ∈ cases, item.correct (before item.suggestionId) = true →
      item.correct (after item.suggestionId) = true) :
    score cases before ≤ score cases after := by
  rw [score, score]
  split
  · exact le_rfl
  · have weights : 0 ≤ (cases.map (·.weight)).sum :=
      List.sum_nonneg fun weight member => by
        obtain ⟨item, inCases, rfl⟩ := List.mem_map.mp member
        exact (positive item inCases).le
    refine div_le_div_of_nonneg_right (List.sum_le_sum fun item member => ?_) weights
    by_cases was : item.correct (before item.suggestionId) = true
    · rw [if_pos was, if_pos (kept item member was)]
    · rw [if_neg was]
      split
      · exact (positive item member).le
      · exact le_rfl

end BetterDecision

/-- A report passes only for complete replays that score better and lose in neither class, and
still passes when one more decision becomes correct. -/
theorem skill_gate_sound_and_monotone
    (batch : SkillOptimizationBatch)
    (positive : ∀ item ∈ batch.selectionCases, 0 < item.weight)
    (baseline : SkillReplayResult)
    (settings : GateSettings) :
    (∀ candidate : SkillReplayResult,
      (batch.evaluateSkillGate baseline candidate settings).passed = true →
        batch.Passes baseline candidate settings) ∧
    ∀ (model : String) (front back : List SkillReplayDecision) (old new : SkillReplayDecision),
      new.caseId = old.caseId → ¬ batch.CorrectDecision old → batch.CorrectDecision new →
      (batch.evaluateSkillGate baseline ⟨model, front ++ old :: back⟩ settings).passed = true →
        (batch.evaluateSkillGate baseline ⟨model, front ++ new :: back⟩ settings).passed = true := by
  refine ⟨fun candidate => (batch.passed_iff baseline candidate settings).mp, ?_⟩
  intro model front back old new sameCase _ correct passed
  rw [SkillOptimizationBatch.passed_iff] at passed ⊢
  have distinct := passed.candidateComplete.1
  have sameIds : (front ++ new :: back).map (·.caseId) = (front ++ old :: back).map (·.caseId) := by
    simp [sameCase]
  have kept : ∀ item ∈ batch.selectionCases,
      item.correct (SkillReplayResult.decisionFor ⟨model, front ++ old :: back⟩ item.suggestionId) =
        true →
      item.correct (SkillReplayResult.decisionFor ⟨model, front ++ new :: back⟩ item.suggestionId) =
        true := by
    intro item member was
    rw [decisionFor_replaced sameCase distinct]
    split
    · rename_i same
      exact correct item member (same.trans sameCase.symm)
    · exact was
  have rises : ∀ cases ⊆ batch.selectionCases,
      score cases (SkillReplayResult.decisionFor ⟨model, front ++ old :: back⟩) ≤
        score cases (SkillReplayResult.decisionFor ⟨model, front ++ new :: back⟩) :=
    fun cases inside => score_le_score (fun item member => positive item (inside member))
      fun item member => kept item (inside member)
  have whole := rises batch.selectionCases (List.Subset.refl _)
  exact {
    baselineComplete := passed.baselineComplete
    candidateComplete := by
      rw [SkillReplayResult.Complete, sameIds]
      exact passed.candidateComplete
    named := passed.named
    sameModel := passed.sameModel
    withinBudget := passed.withinBudget
    notRepeated := passed.notRepeated
    better := passed.better.trans_le whole
    delta := passed.delta.trans (sub_le_sub_right whole _)
    acceptedKept := passed.acceptedKept.trans (rises _ (List.filter_subset_self _))
    rejectedKept := passed.rejectedKept.trans (rises _ (List.filter_subset_self _)) }

/-- A selection case as far as the gate reads it. -/
def gateCase (suggestionId : String) (outcome : Outcome) : Evidence :=
  { suggestionId := suggestionId
    project := "acme/app"
    mrIid := "7"
    mrUrl := ""
    createdAt := "2026-01-01"
    filePath := "src/app.py"
    label := "bug"
    summary := ""
    suggestionContent := ""
    outcome := outcome
    weight := 1
    globalPromptSetHash := ""
    promptBundleHash := "" }

/-- One rejected suggestion, one more of it, and one accepted control. -/
def gateBatch : SkillOptimizationBatch :=
  { project := "acme/app"
    baseManifestHash := "m1"
    trainingCandidates := []
    selectionCases := [gateCase "s1" .rejected, gateCase "s2" .rejected, gateCase "s3" .accepted]
    controlIds := ["s3"]
    splitHash := "" }

def gateReplay (first second : ReplayAction) : SkillReplayResult :=
  ⟨"replay-model", [⟨"s1", first, ""⟩, ⟨"s2", second, ""⟩, ⟨"s3", .emit, ""⟩]⟩

def gateSettings : GateSettings :=
  { minimumScoreDelta := 1 / 10
    editBudget := 3
    editCount := 1
    editSignature := "e1" }

theorem one_more_suppressed_still_passes :
    gateBatch.Passes (gateReplay .emit .emit) (gateReplay .suppress .emit) gateSettings ∧
      (gateBatch.evaluateSkillGate (gateReplay .emit .emit) (gateReplay .suppress .suppress)
        gateSettings).passed = true := by
  have positive : ∀ item ∈ gateBatch.selectionCases, 0 < item.weight := by
    decide
  have gate := skill_gate_sound_and_monotone gateBatch positive (gateReplay .emit .emit) gateSettings
  have passed : (gateBatch.evaluateSkillGate (gateReplay .emit .emit)
      (gateReplay .suppress .emit) gateSettings).passed = true := by
    decide +kernel
  refine ⟨gate.1 _ passed, gate.2 "replay-model" [⟨"s1", .suppress, ""⟩] [⟨"s3", .emit, ""⟩]
    ⟨"s2", .emit, ""⟩ ⟨"s2", .suppress, ""⟩ rfl ?_ ?_ passed⟩
  · exact fun correct => absurd (correct (gateCase "s2" .rejected) (by decide) rfl) (by decide)
  · unfold SkillOptimizationBatch.CorrectDecision
    decide

end MrAgent.PromptEvolution
