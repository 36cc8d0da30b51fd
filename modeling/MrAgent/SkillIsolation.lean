import Mathlib
import MrAgent.SkillOrder

namespace MrAgent.PromptEvolution

open FallibleProgram KeySort

/-!
# Isolation of training and selection

What a batch keeps apart, and when it is the same for every order of the
candidates and of the evidence.
-/

namespace SkillOptimizationBatch

variable (batch : SkillOptimizationBatch)

/-- The evidence of the training candidates. -/
def training : List Evidence :=
  evidenceOf batch.trainingCandidates

/-- The selection cases that are controls. -/
def controls : List Evidence :=
  batch.selectionCases.filter (·.suggestionId ∈ batch.controlIds)

/-- The selection cases that are not. -/
def targets : List Evidence :=
  batch.selectionCases.filter (·.suggestionId ∉ batch.controlIds)

/-- Training and selection are apart, and both are large enough. -/
structure Isolated (limits : BatchLimits) (candidates : List EligibleCandidate) : Prop where
  apart : ∀ mrIid ∈ mrsOf batch.training, mrIid ∉ mrsOf batch.selectionCases
  controlsApart : ∀ mrIid ∈ mrsOf batch.controls,
    mrIid ∉ mrsOf batch.training ∧ mrIid ∉ mrsOf batch.targets
  placed : ∀ item ∈ evidenceOf candidates,
    Xor (item ∈ batch.training) (item ∈ batch.selectionCases)
  caseLimit : batch.selectionCases.length ≤ limits.maxSelectionCases
  trainMrs : limits.minTrainMrs ≤ (mrsOf batch.training).length
  selectionMrs : limits.minSelectionMrs ≤ (mrsOf batch.targets).length
  controlCases : limits.minControlCases ≤ batch.controls.length

end SkillOptimizationBatch

theorem mem_mrsOf
    {evidence : List Evidence}
    {mrIid : String} :
    mrIid ∈ mrsOf evidence ↔ ∃ item ∈ evidence, item.mrIid = mrIid := by
  rw [mrsOf, List.mem_dedup, List.mem_map]

namespace BatchEnv

variable {env : BatchEnv} {limits : BatchLimits}

/-- The ids of the evidence that is held back. -/
def selectionIds (env : BatchEnv) (limits : BatchLimits) (target : List Evidence) : List String :=
  (env.selectionTargets limits target).map (·.suggestionId)

/-- The controls that are taken beside some selection targets. -/
def takenControls (env : BatchEnv) (limits : BatchLimits) (target evidence : List Evidence) :
    List Evidence :=
  (env.rankedControls limits target evidence).take
    (max 0 (limits.maxSelectionCases - (env.selectionTargets limits target).length)).toNat

/-- What a batch is made from. -/
structure Split
    (env : BatchEnv)
    (limits : BatchLimits)
    (candidates : List EligibleCandidate)
    (projectEvidence target evidence : List Evidence)
    (batch : SkillOptimizationBatch) : Prop where
  targetRead : Deduplicated (evidenceOf candidates) target
  evidenceRead : Deduplicated projectEvidence evidence
  enoughSelection : limits.minSelectionMrs ≤ (env.selectionMrs limits target).length
  fits : (env.selectionTargets limits target).length + limits.minControlCases ≤
    limits.maxSelectionCases
  enoughTraining : limits.minTrainMrs ≤ (mrsOf (evidenceOf
    (env.rebuildTrainingCandidates candidates (env.selectionIds limits target)))).length
  apart : ∀ mrIid ∈ mrsOf (evidenceOf
    (env.rebuildTrainingCandidates candidates (env.selectionIds limits target))),
      mrIid ∉ env.selectionMrs limits target
  enoughControls : limits.minControlCases ≤ (env.takenControls limits target evidence).length
  made : batch = env.assembleBatch limits candidates
    (env.rebuildTrainingCandidates candidates (env.selectionIds limits target))
    (env.selectionTargets limits target) (env.takenControls limits target evidence)

theorem split_of_built
    {candidates : List EligibleCandidate}
    {projectEvidence : List Evidence}
    {batch : SkillOptimizationBatch}
    (built : env.buildOptimizationBatch limits candidates projectEvidence = .ok batch) :
    ∃ target evidence, env.Split limits candidates projectEvidence target evidence batch := by
  simp only [buildOptimizationBatch, bind_eq_ok, raiseIf_eq_ok, Bool.or_eq_false_iff,
    decide_eq_false_iff_not, not_lt, List.any_eq_false, decide_eq_true_eq] at built
  obtain ⟨_, _, _, _, _, _, _, _, target, dedup, _, _, _, enoughSelection, _, fits, _,
    ⟨enoughTraining, apart⟩, evidence, projectDedup, _, enoughControls, made⟩ := built
  cases made
  exact ⟨target, evidence, {
    targetRead := deduplicateEvidence_eq_ok.mp dedup
    evidenceRead := deduplicateEvidence_eq_ok.mp projectDedup
    enoughSelection := enoughSelection
    fits := fits
    enoughTraining := enoughTraining
    apart := apart
    enoughControls := enoughControls
    made := rfl }⟩

/-! ## The isolation -/

theorem mem_evidenceOf_training
    {candidates : List EligibleCandidate}
    {selectionIds : List String}
    {item : Evidence} :
    item ∈ evidenceOf (env.rebuildTrainingCandidates candidates selectionIds) ↔
      item ∈ evidenceOf candidates ∧ item.suggestionId ∉ selectionIds := by
  rw [evidenceOf, evidenceOf, List.mem_flatMap, List.mem_flatMap]
  constructor
  · rintro ⟨rebuilt, member, inside⟩
    obtain ⟨candidate, given, left⟩ := List.mem_filterMap.mp member
    rw [(rebuildCandidate_eq_some left).2, List.mem_filter, mem_sortedBy, decide_eq_true_eq]
      at inside
    exact ⟨⟨candidate, mem_sortedBy.mp given, inside.1⟩, inside.2⟩
  · rintro ⟨⟨candidate, given, inside⟩, outside⟩
    have kept : item ∈ (sortedBy (·.suggestionId) candidate.cluster.evidence).filter
        (·.suggestionId ∉ selectionIds) :=
      List.mem_filter.mpr ⟨mem_sortedBy.mpr inside, decide_eq_true outside⟩
    cases left : env.rebuildCandidate selectionIds candidate with
    | none =>
        rw [rebuildCandidate] at left
        simp only [List.ne_nil_of_mem kept, ↓reduceIte, reduceCtorEq] at left
    | some rebuilt =>
        refine ⟨rebuilt, List.mem_filterMap.mpr ⟨candidate, mem_sortedBy.mpr given, left⟩, ?_⟩
        rw [(rebuildCandidate_eq_some left).2]
        exact kept

theorem mem_selectionTargets
    {target : List Evidence}
    {item : Evidence} :
    item ∈ env.selectionTargets limits target ↔
      item ∈ target ∧ item.mrIid ∈ env.selectionMrs limits target ∧
        item.outcome ∈ [Outcome.accepted, .rejected] := by
  rw [selectionTargets, List.mem_filter, Bool.and_eq_true, decide_eq_true_eq, decide_eq_true_eq]

theorem of_mem_takenControls
    {target evidence : List Evidence}
    {item : Evidence}
    (taken : item ∈ env.takenControls limits target evidence) :
    item.suggestionId ∉ target.map (·.suggestionId) ∧ item.mrIid ∉ mrsOf target := by
  have ranked := List.mem_of_mem_take taken
  rw [rankedControls, mem_sortedBy, List.mem_filter] at ranked
  simp only [Bool.and_eq_true, decide_eq_true_eq] at ranked
  exact ⟨ranked.2.1.1.2, ranked.2.1.2⟩

theorem selectionMrs_nodup
    (target : List Evidence) :
    (env.selectionMrs limits target).Nodup ∧
      env.selectionMrs limits target ⊆ rejectedMrs target := by
  have once := env.iterate_perm (rejectedMrs target)
  refine ⟨List.Nodup.sublist (List.take_sublist _ _) ?_, fun mrIid member => ?_⟩
  · rw [(sortedBy_perm _ _).nodup_iff, once.nodup_iff]
    exact List.nodup_dedup _
  · have ranked := mem_sortedBy.mp (List.mem_of_mem_take member)
    exact List.mem_dedup.mp (once.subset ranked)

namespace Split

variable {candidates : List EligibleCandidate} {projectEvidence target evidence : List Evidence}
  {batch : SkillOptimizationBatch}

theorem mem_training
    (split : env.Split limits candidates projectEvidence target evidence batch)
    {item : Evidence} :
    item ∈ batch.training ↔
      item ∈ target ∧ item.suggestionId ∉ env.selectionIds limits target := by
  rw [split.made, split.targetRead.same]
  exact mem_evidenceOf_training

theorem mem_selectionCases
    (split : env.Split limits candidates projectEvidence target evidence batch)
    {item : Evidence} :
    item ∈ batch.selectionCases ↔
      item ∈ env.selectionTargets limits target ∨
        item ∈ env.takenControls limits target evidence := by
  rw [split.made, assembleBatch, mem_sortedBy, List.mem_append]

theorem mem_controlIds
    (split : env.Split limits candidates projectEvidence target evidence batch)
    {suggestionId : String} :
    suggestionId ∈ batch.controlIds ↔
      ∃ item ∈ env.takenControls limits target evidence, item.suggestionId = suggestionId := by
  rw [split.made, assembleBatch, mem_sortedBy, List.mem_map]

theorem target_not_control
    (split : env.Split limits candidates projectEvidence target evidence batch)
    {item : Evidence}
    (member : item ∈ target) :
    item.suggestionId ∉ batch.controlIds := by
  rw [split.mem_controlIds]
  rintro ⟨control, taken, ids⟩
  exact (of_mem_takenControls taken).1 (ids ▸ List.mem_map_of_mem member)

theorem mem_targets
    (split : env.Split limits candidates projectEvidence target evidence batch)
    {item : Evidence} :
    item ∈ batch.targets ↔ item ∈ env.selectionTargets limits target := by
  rw [SkillOptimizationBatch.targets, List.mem_filter, decide_eq_true_eq, split.mem_selectionCases]
  constructor
  · rintro ⟨held | taken, other⟩
    · exact held
    · exact absurd (split.mem_controlIds.mpr ⟨item, taken, rfl⟩) other
  · exact fun held => ⟨Or.inl held, split.target_not_control (mem_selectionTargets.mp held).1⟩

theorem mem_controls
    (split : env.Split limits candidates projectEvidence target evidence batch)
    {item : Evidence} :
    item ∈ batch.controls ↔ item ∈ env.takenControls limits target evidence := by
  rw [SkillOptimizationBatch.controls, List.mem_filter, decide_eq_true_eq, split.mem_selectionCases]
  constructor
  · rintro ⟨held | taken, control⟩
    · exact absurd control (split.target_not_control (mem_selectionTargets.mp held).1)
    · exact taken
  · exact fun taken => ⟨Or.inr taken, split.mem_controlIds.mpr ⟨item, taken, rfl⟩⟩

theorem selectionCases_perm
    (split : env.Split limits candidates projectEvidence target evidence batch) :
    batch.selectionCases.Perm
      (env.selectionTargets limits target ++ env.takenControls limits target evidence) := by
  rw [split.made]
  exact sortedBy_perm _ _

theorem controls_length
    (split : env.Split limits candidates projectEvidence target evidence batch) :
    batch.controls.length = (env.takenControls limits target evidence).length := by
  have same := split.selectionCases_perm.filter (·.suggestionId ∈ batch.controlIds)
  rw [SkillOptimizationBatch.controls, same.length_eq, List.filter_append]
  have noTarget : (env.selectionTargets limits target).filter
      (·.suggestionId ∈ batch.controlIds) = [] := by
    refine List.filter_eq_nil_iff.mpr fun item held => ?_
    rw [decide_eq_true_eq]
    exact split.target_not_control (mem_selectionTargets.mp held).1
  have everyControl : (env.takenControls limits target evidence).filter
      (·.suggestionId ∈ batch.controlIds) = env.takenControls limits target evidence := by
    refine List.filter_eq_self.mpr fun item taken => ?_
    exact decide_eq_true (split.mem_controlIds.mpr ⟨item, taken, rfl⟩)
  rw [noTarget, everyControl, List.nil_append]

theorem held_of_id
    (split : env.Split limits candidates projectEvidence target evidence batch)
    {item : Evidence}
    (member : item ∈ target)
    (held : item.suggestionId ∈ env.selectionIds limits target) :
    item ∈ env.selectionTargets limits target := by
  obtain ⟨other, otherHeld, ids⟩ := List.mem_map.mp held
  have otherMember := (mem_selectionTargets.mp otherHeld).1
  rwa [← List.inj_on_of_nodup_map split.targetRead.distinct otherMember member ids]

theorem training_apart
    (split : env.Split limits candidates projectEvidence target evidence batch)
    {item : Evidence}
    (trained : item ∈ batch.training) :
    item.mrIid ∉ env.selectionMrs limits target := by
  refine split.apart item.mrIid (mem_mrsOf.mpr ⟨item, ?_, rfl⟩)
  rw [split.made] at trained
  exact trained

theorem isolated
    (split : env.Split limits candidates projectEvidence target evidence batch)
    (controls : 0 ≤ limits.minControlCases) :
    batch.Isolated limits candidates where
  apart mrIid trained selected := by
    obtain ⟨item, itemTrained, rfl⟩ := mem_mrsOf.mp trained
    obtain ⟨case, caseSelected, same⟩ := mem_mrsOf.mp selected
    rcases split.mem_selectionCases.mp caseSelected with held | taken
    · exact split.training_apart itemTrained (same ▸ (mem_selectionTargets.mp held).2.1)
    · exact (of_mem_takenControls taken).2
        (mem_mrsOf.mpr ⟨item, (split.mem_training.mp itemTrained).1, same.symm⟩)
  controlsApart mrIid control := by
    obtain ⟨item, itemControl, rfl⟩ := mem_mrsOf.mp control
    have away := (of_mem_takenControls (split.mem_controls.mp itemControl)).2
    constructor
    · intro trained
      obtain ⟨other, otherTrained, same⟩ := mem_mrsOf.mp trained
      exact away (mem_mrsOf.mpr ⟨other, (split.mem_training.mp otherTrained).1, same⟩)
    · intro held
      obtain ⟨other, otherHeld, same⟩ := mem_mrsOf.mp held
      exact away (mem_mrsOf.mpr
        ⟨other, (mem_selectionTargets.mp (split.mem_targets.mp otherHeld)).1, same⟩)
  placed item given := by
    have member := (split.targetRead.same item).mpr given
    by_cases held : item.suggestionId ∈ env.selectionIds limits target
    · refine Or.inr ⟨split.mem_selectionCases.mpr (Or.inl (split.held_of_id member held)), ?_⟩
      exact fun trained => (split.mem_training.mp trained).2 held
    · refine Or.inl ⟨split.mem_training.mpr ⟨member, held⟩, fun selected => ?_⟩
      rcases split.mem_selectionCases.mp selected with here | taken
      · exact held (List.mem_map_of_mem here)
      · exact (of_mem_takenControls taken).1 (List.mem_map_of_mem member)
  caseLimit := by
    have fits := split.fits
    have room : (env.takenControls limits target evidence).length ≤
        (max 0 (limits.maxSelectionCases - (env.selectionTargets limits target).length)).toNat :=
      List.length_take_le _ _
    rw [split.selectionCases_perm.length_eq, List.length_append]
    omega
  trainMrs := by
    rw [split.made]
    exact split.enoughTraining
  selectionMrs := by
    refine split.enoughSelection.trans ?_
    obtain ⟨distinct, rejected⟩ := @selectionMrs_nodup env limits target
    refine Nat.cast_le.mpr (List.subperm_of_subset distinct fun mrIid selected => ?_).length_le
    obtain ⟨item, inside, rfl⟩ := List.mem_map.mp (rejected selected)
    obtain ⟨member, outcome⟩ := List.mem_filter.mp inside
    refine mem_mrsOf.mpr ⟨item, split.mem_targets.mpr (mem_selectionTargets.mpr ?_), rfl⟩
    exact ⟨member, selected, by simp [of_decide_eq_true outcome]⟩
  controlCases := by
    rw [split.controls_length]
    exact split.enoughControls

end Split

/-! ## The order -/

/-- The batch is the same for every order of the candidates and of all evidence. -/
def OrderFree
    (env : BatchEnv)
    (limits : BatchLimits)
    (candidates : List EligibleCandidate)
    (projectEvidence : List Evidence)
    (batch : SkillOptimizationBatch) : Prop :=
  ∀ order evidenceOrder, SameCandidates order candidates → evidenceOrder.Perm projectEvidence →
    env.buildOptimizationBatch limits order evidenceOrder = .ok batch

/--
Candidates that share an id leave the same for training once the evidence of
the selection is taken out, where they leave anything.
-/
def RepeatedAlike
    (env : BatchEnv)
    (limits : BatchLimits)
    (candidates : List EligibleCandidate) : Prop :=
  ∀ target, deduplicateEvidence (evidenceOf candidates) = .ok target →
    env.LeaveOne (env.selectionIds limits target) candidates

theorem buildOptimizationBatch_congr
    {candidates order : List EligibleCandidate}
    {projectEvidence evidenceOrder target evidence : List Evidence}
    (targetRead : Deduplicated (evidenceOf candidates) target)
    (evidenceRead : Deduplicated projectEvidence evidence)
    (alike : env.LeaveOne (env.selectionIds limits target) candidates)
    (same : SameCandidates order candidates)
    (sameEvidence : evidenceOrder.Perm projectEvidence) :
    env.buildOptimizationBatch limits order evidenceOrder =
      env.buildOptimizationBatch limits candidates projectEvidence := by
  have dedup := deduplicateEvidence_eq_ok.mpr targetRead
  have dedupOrder := deduplicateEvidence_eq_ok.mpr (targetRead.of_perm same.evidenceOf_perm)
  have project := deduplicateEvidence_eq_ok.mpr evidenceRead
  have projectOrder := deduplicateEvidence_eq_ok.mpr (evidenceRead.of_perm sameEvidence)
  have training := rebuildTrainingCandidates_congr
    (fun early earlyMember late lateMember =>
      targetRead.consistent earlyMember lateMember) alike same
  have candidateIds : sortedBy id (order.map (·.candidateId)) =
      sortedBy id (candidates.map (·.candidateId)) :=
    sortedBy_of_perm (fun _ _ _ _ => id) same.ids_perm
  rw [selectionIds] at training
  unfold buildOptimizationBatch
  simp only [same.eq_nil_iff, same.evidenceOf_perm.any_eq, dedup, dedupOrder, project,
    projectOrder, bind, Except.bind, training, assembleBatch, candidateIds]

theorem Split.orderFree_iff
    {candidates : List EligibleCandidate}
    {projectEvidence target evidence : List Evidence}
    {batch : SkillOptimizationBatch}
    (split : env.Split limits candidates projectEvidence target evidence batch)
    (built : env.buildOptimizationBatch limits candidates projectEvidence = .ok batch) :
    env.OrderFree limits candidates projectEvidence batch ↔ env.RepeatedAlike limits candidates := by
  have onlyTarget : ∀ other, deduplicateEvidence (evidenceOf candidates) = .ok other →
      other = target := fun other read =>
    (deduplicateEvidence_eq_ok.mp read).unique split.targetRead
  constructor
  · intro free other read first firstMember second secondMember ids left right firstLeft secondLeft
    obtain rfl := onlyTarget other read
    by_cases one : first = second
    · rw [one, secondLeft] at firstLeft
      exact (Option.some.inj firstLeft).symm
    -- The two candidates at the front, in both orders.
    let rest := (candidates.erase first).erase second
    have front : (first :: second :: rest).Perm candidates := by
      have others : second ∈ candidates.erase first :=
        (List.mem_erase_of_ne fun same => one same.symm).mpr secondMember
      exact (((List.perm_cons_erase others).cons first).symm).trans
        (List.perm_cons_erase firstMember).symm
    have trained : ∀ order, order.Perm candidates →
        env.rebuildTrainingCandidates order (env.selectionIds limits other) =
          batch.trainingCandidates := by
      intro order same
      obtain ⟨target', evidence', splitOrder⟩ :=
        split_of_built (free order projectEvidence (SameCandidates.of_perm same) (List.Perm.refl _))
      have sameTarget := splitOrder.targetRead.unique
        (split.targetRead.of_perm (SameCandidates.of_perm same).evidenceOf_perm)
      rw [splitOrder.made, sameTarget]
      rfl
    have straight := trained _ front
    have swapped := trained _ ((List.Perm.swap second first rest).symm.trans front)
    have heads := congrArg (List.filter (·.candidateId = first.candidateId))
      (straight.trans swapped.symm)
    rw [filter_rebuildTrainingCandidates, filter_rebuildTrainingCandidates] at heads
    simp only [List.filter_cons, ids, decide_true, ↓reduceIte, List.filterMap_cons, firstLeft,
      secondLeft, List.cons.injEq] at heads
    exact heads.1
  · intro alike order evidenceOrder same sameEvidence
    rw [buildOptimizationBatch_congr split.targetRead split.evidenceRead
      (alike target (deduplicateEvidence_eq_ok.mpr split.targetRead)) same sameEvidence, built]

end BatchEnv

/-- A batch keeps training and selection apart, and is the same for every order exactly when
candidates that share an id leave the same for training. -/
theorem training_and_selection_isolated_iff
    (env : BatchEnv)
    {limits : BatchLimits}
    (controls : 0 ≤ limits.minControlCases)
    {candidates : List EligibleCandidate}
    {projectEvidence : List Evidence}
    {batch : SkillOptimizationBatch}
    (built : env.buildOptimizationBatch limits candidates projectEvidence = .ok batch) :
    batch.Isolated limits candidates ∧
      (env.OrderFree limits candidates projectEvidence batch ↔
        env.RepeatedAlike limits candidates) := by
  obtain ⟨target, evidence, split⟩ := BatchEnv.split_of_built built
  exact ⟨split.isolated controls, split.orderFree_iff built⟩

namespace IsolationSample

/-- `json.dumps` of names without quotation marks. -/
def dumpNames (names : List String) : String :=
  "[" ++ ",".intercalate (names.map fun name => "\"" ++ name ++ "\"") ++ "]"

def dumps (payload : SplitPayload) : String :=
  "\x7b\"base_manifest_hash\":\"" ++ payload.baseManifestHash ++
    "\",\"candidate_ids\":" ++ dumpNames payload.candidateIds ++
    ",\"control_ids\":" ++ dumpNames payload.controlIds ++
    ",\"project\":\"" ++ payload.project ++
    "\",\"selection_ids\":" ++ dumpNames payload.selectionIds ++
    ",\"training_ids\":" ++ dumpNames payload.trainingIds ++ "\x7d"

/-- What the digests of the batches below are taken from. -/
def payload (secondId : String) : SplitPayload where
  project := "acme/app"
  baseManifestHash := "m1"
  candidateIds := ["c1", secondId]
  trainingIds := ["s1", "s2"]
  selectionIds := ["s3", "s4"]
  controlIds := ["s4"]

def sha256 (text : String) : String :=
  if text = "acme/app\nm1\nselection\n3" then
    "0e84dc38230e5af8363a0487c7b2845143bda0307a99f7468303a9147c442d1e"
  else if text = "acme/app\nm1\ncontrol\ns4" then
    "013dfd436167d46bf9777c7c426fe108c578868deead5d45785270361b7aa051"
  else if text = dumps (payload "c1") then
    "c8b6790a023c59595ea3ebed141ad81a4dcf7207f537f2f2f7a3e9f85f5f2ce9"
  else if text = dumps (payload "c2") then
    "e26e3ba7ac952fbf5e5bd969310560c35189c5ed5ffff55ff665e05d9ad3a63f"
  else ""

def env : BatchEnv where
  sha256 := sha256
  dumps := dumps
  iterate := List.dedup
  iterate_perm := fun _ => List.Perm.refl _
  ceilProduct := fun count ratio => (count * ratio).ceil
  sum := List.sum
  quotient := fun dividend divisor => dividend / divisor

def limits : BatchLimits where
  project := "acme/app"
  baseManifestHash := "m1"
  selectionRatio := 1 / 2
  minTrainMrs := 1
  minSelectionMrs := 1
  minControlCases := 1
  maxSelectionCases := 20

def item (suggestionId mrIid : String) (outcome : Outcome) : Evidence where
  suggestionId := suggestionId
  project := "acme/app"
  mrIid := mrIid
  mrUrl := ""
  createdAt := "2026-08-01"
  filePath := "src/app.py"
  label := "bug"
  summary := ""
  suggestionContent := ""
  outcome := outcome
  weight := 1
  globalPromptSetHash := ""
  promptBundleHash := ""
  projectSkillManifestHash := "m1"

def candidate (candidateId clusterKey : String) (evidence : List Evidence) : EligibleCandidate where
  candidateId := candidateId
  scope := .project
  project := some "acme/app"
  sourcePromptHash := "h1"
  cluster := {
    clusterKey := clusterKey
    evidence := evidence
    positiveWeight := 1
    negativeWeight := 1
    negativeRatio := 1 / 2 }

/-- Two candidates of three merge requests, one of them rejected. -/
def candidates (secondId : String) : List EligibleCandidate :=
  [candidate "c1" "k1" [item "s1" "1" .accepted, item "s3" "3" .rejected],
    candidate secondId "k2" [item "s2" "2" .unhandled]]

/-- An accepted suggestion of a fourth one. -/
def projectEvidence : List Evidence :=
  [item "s4" "4" .accepted]

def batch (secondId splitHash : String) : SkillOptimizationBatch where
  project := "acme/app"
  baseManifestHash := "m1"
  trainingCandidates := [
    { candidate "c1" "k1" [item "s1" "1" .accepted] with
      cluster := ⟨"k1", [item "s1" "1" .accepted], 1, 0, 0⟩ },
    { candidate secondId "k2" [item "s2" "2" .unhandled] with
      cluster := ⟨"k2", [item "s2" "2" .unhandled], 0, 1, 1⟩ }]
  selectionCases := [item "s3" "3" .rejected, item "s4" "4" .accepted]
  controlIds := ["s4"]
  splitHash := splitHash

end IsolationSample

open IsolationSample in
theorem distinct_candidates_are_isolated :
    let made := batch "c2" "e26e3ba7ac952fbf5e5bd969310560c35189c5ed5ffff55ff665e05d9ad3a63f"
    made.Isolated limits (candidates "c2") ∧
      env.OrderFree limits (candidates "c2") projectEvidence made := by
  have built : env.buildOptimizationBatch limits (candidates "c2") projectEvidence =
      .ok (batch "c2" "e26e3ba7ac952fbf5e5bd969310560c35189c5ed5ffff55ff665e05d9ad3a63f") := by
    decide +kernel
  have isolated := training_and_selection_isolated_iff env (by decide) built
  exact ⟨isolated.1, isolated.2.mpr fun _ _ => BatchEnv.leaveOne_of_nodup (by decide)⟩

open IsolationSample in
/-- Candidates with one id make another batch in the other order. -/
theorem repeated_candidates_make_two_batches :
    let made := batch "c1" "c8b6790a023c59595ea3ebed141ad81a4dcf7207f537f2f2f7a3e9f85f5f2ce9"
    env.buildOptimizationBatch limits (candidates "c1") projectEvidence = .ok made ∧
      ¬ env.OrderFree limits (candidates "c1") projectEvidence made := by
  refine ⟨by decide +kernel, fun free => ?_⟩
  have swapped := free (candidates "c1").reverse projectEvidence
    (SameCandidates.of_perm (List.reverse_perm _)) (List.Perm.refl _)
  revert swapped
  decide +kernel

end MrAgent.PromptEvolution
