import MrAgent.InitialDraft

namespace MrAgent

/-!
# The initial plan covers its root causes

The groups of `build_root_cause_groups` have admissible and different identities,
so each of the first twenty becomes one work item. The plan is built exactly when
all these drafts are accepted and the fields of the plan itself are in bounds.
-/

/-- An initial plan is built, and each of the first twenty groups has one work item. -/
def PlannedAndCovered
    (env : PlanEnv)
    (s : AgentState)
    (now : String)
    (author : PlanAuthor)
    (groups : List RootCauseGroup) : Prop :=
  ∃ plan, buildInitialRepairPlan env s now author = some plan ∧
    ∀ group ∈ groups.take maxRepairWorkItems,
      ∃! item, item ∈ plan.workItems ∧ item.workItemId = group.rootCauseId

/-- The fields that a plan takes over from the state are within their bounds. -/
structure PlanRecordFits
    (env : PlanEnv)
    (s : AgentState)
    (now : String)
    (author : PlanAuthor)
    (pipeline : ToolResult) : Prop where
  project : lengthIn 1 300 s.projectId = true
  baseline : (pipelineIdentity env s pipeline).baselineSha.length ≤ 128
  pipelineId : (pipelineIdentity env s pipeline).pipelineId.all (1 ≤ ·) = true
  now : lengthIn 1 80 now = true
  model : author.plannerModel.length ≤ 200

/-! ## One draft for each group -/

theorem strip_eq_self
    {text : List Char}
    (solid : ∀ c ∈ text, isSpace c = false) :
    strip text = text := by
  have stays : ∀ l : List Char, (∀ c ∈ l, isSpace c = false) → l.dropWhile isSpace = l := by
    intro l
    cases l with
    | nil => exact fun _ => rfl
    | cons first rest =>
        intro letters
        exact List.dropWhile_cons_of_neg (by simp [letters first List.mem_cons_self])
  rw [strip, stays text solid, stays text.reverse fun c member => solid c (List.mem_reverse.mp member),
    List.reverse_reverse]

/-- What is needed of the groups of a Pipeline. -/
structure IdentifiedGroups (groups : List RootCauseGroup) : Prop where
  size : ∀ group ∈ groups, group.rootCauseId.length = 20
  digits : ∀ group ∈ groups, ∀ c ∈ group.rootCauseId.toList, hexadecimal c = true
  distinct : (groups.map (·.rootCauseId)).Nodup

theorem identifiedGroups
    (grouping : GroupingEnv)
    (jobs : List FailedJob) :
    IdentifiedGroups (buildRootCauseGroups grouping jobs) where
  size group member := by
    obtain ⟨⟨job, -, same⟩, -⟩ := mem_buildRootCauseGroups member
    rw [← same]
    exact rootCauseId_length job
  digits group member := by
    obtain ⟨⟨job, -, same⟩, -⟩ := mem_buildRootCauseGroups member
    rw [← same]
    exact rootCauseId_hexadecimal job
  distinct := rootCauseIds_nodup jobs

theorem draftWorkItems_eq
    (env : PlanEnv)
    (pipeline : ToolResult)
    (groups : List RootCauseGroup)
    (identified : ∀ group ∈ groups, group.rootCauseId.length = 20 ∧
      ∀ c ∈ group.rootCauseId.toList, hexadecimal c = true) :
    (groups.filterMap fun group =>
      let rootId := String.ofList (strip group.rootCauseId.toList)
      if rootId = "" then none else some (draftWorkItem env pipeline rootId group)) =
      groups.map fun group => draftWorkItem env pipeline group.rootCauseId group := by
  have solid : ∀ c, hexadecimal c = true → isSpace c = false := by
    intro c digit
    have all : ∀ c ∈ "0123456789abcdef".toList, isSpace c = false := by decide
    exact all c (of_decide_eq_true digit)
  induction groups with
  | nil => rfl
  | cons group rest ih =>
      obtain ⟨⟨size, digits⟩, later⟩ := List.forall_mem_cons.mp identified
      have kept : String.ofList (strip group.rootCauseId.toList) = group.rootCauseId := by
        rw [strip_eq_self fun c member => solid c (digits c member), String.ofList_toList]
      have nonempty : group.rootCauseId ≠ "" := by
        intro empty
        rw [empty] at size
        cases size
      rw [List.filterMap_cons, List.map_cons, ih later]
      dsimp only
      rw [kept, if_neg nonempty]

section Items

variable {env : PlanEnv} {pipeline : ToolResult}

theorem draftWorkItems_identified
    (identified : IdentifiedGroups (pipelineGroups env pipeline)) :
    draftWorkItems env pipeline = ((pipelineGroups env pipeline).take maxRepairWorkItems).map
      fun group => draftWorkItem env pipeline group.rootCauseId group :=
  draftWorkItems_eq env pipeline _ fun group member =>
    ⟨identified.size group (List.mem_of_mem_take member),
      identified.digits group (List.mem_of_mem_take member)⟩

theorem exists_mapM_iff
    {α β : Type}
    {read : α → Option β}
    {stored : List α} :
    (∃ values, stored.mapM read = some values) ↔ ∀ item ∈ stored, ∃ value, read item = some value := by
  simp only [FallibleProgram.mapM_eq_some_iff]
  induction stored with
  | nil => exact iff_of_true ⟨[], List.Forall₂.nil⟩ fun _ member => absurd member List.not_mem_nil
  | cons item rest ih =>
      rw [List.forall_mem_cons, ← ih]
      constructor
      · rintro ⟨values, pairs⟩
        obtain ⟨value, later, first, others, -⟩ := List.forall₂_cons_left_iff.mp pairs
        exact ⟨⟨value, first⟩, later, others⟩
      · rintro ⟨⟨value, first⟩, later, others⟩
        exact ⟨value :: later, List.Forall₂.cons first others⟩

theorem workItems_isSome_iff
    (paths : ∀ text, env.diagnosticPath text = "" ∨
      ∃ raw, safePath raw = some (env.diagnosticPath text))
    (identified : IdentifiedGroups (pipelineGroups env pipeline)) :
    (∃ items, workItemsFromPipeline env pipeline = some items) ↔
      ∀ group ∈ (pipelineGroups env pipeline).take maxRepairWorkItems, GroupFits pipeline group := by
  have built : (∃ items, workItemsFromPipeline env pipeline = some items) ↔
      ∃ values, (draftWorkItems env pipeline).mapM RepairWorkItem.modelValidate = some values := by
    simp only [workItemsFromPipeline, Option.map_eq_some_iff]
    exact ⟨fun ⟨_, values, mapped, _⟩ => ⟨values, mapped⟩,
      fun ⟨values, mapped⟩ => ⟨_, values, mapped, rfl⟩⟩
  rw [built, exists_mapM_iff, draftWorkItems_identified identified, List.forall_mem_map]
  refine forall₂_congr fun group member => ?_
  have known := List.mem_of_mem_take member
  exact draft_accepted_iff paths pipeline (identified.size group known)
    (safeId_of_hexadecimal (identified.size group known) (identified.digits group known))

theorem workItems_ids
    (identified : IdentifiedGroups (pipelineGroups env pipeline))
    {items : List RepairWorkItem}
    (built : workItemsFromPipeline env pipeline = some items) :
    (items.map (·.workItemId)).Perm
      (((pipelineGroups env pipeline).take maxRepairWorkItems).map (·.rootCauseId)) := by
  obtain ⟨values, mapped, rfl⟩ := Option.map_eq_some_iff.mp built
  have kept : (draftWorkItems env pipeline).map (·.workItemId) = values.map (·.workItemId) :=
    FallibleProgram.map_eq_of_mapM mapped fun draft item accepted => by
      obtain ⟨-, -, -, -, -, same⟩ := RepairWorkItem.modelValidate_cases accepted
      rw [same]
  refine ((List.perm_insertionSort (itemPriorityLe env) values).map (·.workItemId)).trans ?_
  rw [← kept, draftWorkItems_identified identified, List.map_map]
  exact List.Perm.refl _

end Items

/-! ## The plan -/

theorem newestEvidence_nonneg
    (ledger : ExecutionLedger) :
    -1 ≤ newestEvidence ledger (-1) := by
  have grows : ∀ (rest : List Int) (start : Int), start ≤ rest.foldl max start := by
    intro rest
    induction rest with
    | nil => exact le_refl
    | cons next rest ih =>
        exact fun start => le_trans (le_max_left start next) (ih _)
  rw [newestEvidence]
  cases ledger.toolAttempts with
  | nil => exact le_refl _
  | cons first rest =>
      have least := grows (rest.map fun attempt => (attempt.sequence : Int)) first.sequence
      rw [List.map_cons]
      dsimp only
      omega

section Plan

variable {env : PlanEnv} {s : AgentState} {now : String} {author : PlanAuthor}
  {pipeline : ToolResult}

theorem updated_ids
    (items : List RepairWorkItem) :
    ((items.map author.hypothesise).map (markExhausted env s)).map (·.workItemId) =
      items.map (·.workItemId) := by
  rw [List.map_map, List.map_map]
  refine List.map_congr_left fun item _ => ?_
  have marked : ∀ other, (markExhausted env s other).workItemId = other.workItemId := by
    intro other
    rw [markExhausted]
    split <;> rfl
  rw [Function.comp_apply, Function.comp_apply, marked, PlanAuthor.hypothesise]
  split <;> rfl

/-- The record that the builder validates. -/
def initialRecord
    (env : PlanEnv)
    (s : AgentState)
    (now : String)
    (author : PlanAuthor)
    (pipeline : ToolResult)
    (items : List RepairWorkItem) : RepairPlan :=
  let identity := pipelineIdentity env s pipeline
  { planId := env.digest (.plan (lineageIdentifier env s identity) 1 items)
    lineageId := lineageIdentifier env s identity
    version := 1
    projectId := s.projectId
    mrId := s.mrId
    baselineSha := identity.baselineSha
    sourcePipelineId := identity.pipelineId
    sourceCommitSha := identity.sourceCommitSha
    sourceFailureDigest := identity.sourceFailureDigest
    evidenceCursor := newestEvidence (buildExecutionLedger s.messages) (-1)
    createdAt := now
    revisionReason := "initial_pipeline_evidence"
    planningMode := author.planningMode
    plannerModel := author.plannerModel
    workItems := items }

theorem initialRecord_fieldsValid_iff
    (digests : ∀ payload, (env.digest payload).length = 64)
    (known : (pipelineIdentity env s pipeline).baselineSha ≠ "")
    {items : List RepairWorkItem}
    (nonempty : items ≠ [])
    (few : items.length ≤ 20)
    (distinct : (items.map (·.workItemId)).Nodup) :
    (initialRecord env s now author pipeline items).fieldsValid = true ↔
      PlanRecordFits env s now author pipeline := by
  have positive : 1 ≤ (pipelineIdentity env s pipeline).baselineSha.length :=
    Nat.pos_of_ne_zero fun zero => known (String.length_eq_zero_iff.mp zero)
  have cursor := newestEvidence_nonneg (buildExecutionLedger s.messages)
  have inhabited := List.length_pos_iff.mpr nonempty
  have reason : "initial_pipeline_evidence".length = 25 := by decide
  have lineage : (lineageIdentifier env s (pipelineIdentity env s pipeline)).length = 64 :=
    digests _
  have failure : (pipelineIdentity env s pipeline).sourceFailureDigest.length = 64 := digests _
  have source : (pipelineIdentity env s pipeline).sourceCommitSha =
      (pipelineIdentity env s pipeline).baselineSha := rfl
  have bound : ∀ (low high : Nat) (text : String),
      lengthIn low high text = true ↔ low ≤ text.length ∧ text.length ≤ high := by
    intro low high text
    rw [lengthIn, Bool.and_eq_true, decide_eq_true_iff, decide_eq_true_iff]
  simp only [RepairPlan.fieldsValid, RepairPlan.ids, initialRecord, bound, digests, lineage,
    failure, source, reason, positive, cursor, distinct, few, maxPlanVersions,
    maxRepairWorkItems, Bool.and_eq_true, decide_eq_true_iff, String.length_empty]
  constructor
  · rintro ⟨⟨⟨⟨⟨⟨⟨⟨⟨⟨⟨⟨_, project⟩, _, baseline⟩, pipelineId⟩, _⟩, _⟩, _⟩, created⟩, _⟩, model⟩, _⟩,
      _⟩, _⟩
    exact ⟨(bound _ _ _).mpr project, baseline, pipelineId, (bound _ _ _).mpr created, model.2⟩
  · rintro ⟨project, baseline, pipelineId, created, model⟩
    simp only [(bound _ _ _).mp project, baseline, pipelineId, (bound _ _ _).mp created, model]
    simp
    omega

theorem plan_isSome_iff
    (digests : ∀ payload, (env.digest payload).length = 64)
    (failed : latestFailedPipeline s.messages = some pipeline)
    (nonempty : (pipelineGroups env pipeline) ≠ [])
    (known : (pipelineIdentity env s pipeline).baselineSha ≠ "")
    (identified : IdentifiedGroups (pipelineGroups env pipeline)) :
    (∃ plan, buildInitialRepairPlan env s now author = some plan) ↔
      PlanRecordFits env s now author pipeline ∧
        ∃ items, workItemsFromPipeline env pipeline = some items := by
  have total : ∀ items, workItemsFromPipeline env pipeline = some items →
      ((∃ plan, buildInitialRepairPlan env s now author = some plan) ↔
        PlanRecordFits env s now author pipeline) := by
    intro items built
    have ids := workItems_ids identified built
    have distinct := ids.nodup_iff.mpr
      ((List.take_sublist maxRepairWorkItems _).map _ |>.nodup identified.distinct)
    have size : items.length = ((pipelineGroups env pipeline).take maxRepairWorkItems).length := by
      rw [← List.length_map (·.workItemId), ids.length_eq, List.length_map]
    have inhabited : items ≠ [] := by
      intro empty
      rw [empty, List.length_nil, List.length_take] at size
      have positive := List.length_pos_iff.mpr nonempty
      have limit : maxRepairWorkItems = 20 := rfl
      omega
    have few : items.length ≤ 20 := size.trans_le (List.length_take_le _ _)
    have updatedIds := @updated_ids env s author items
    rw [← @initialRecord_fieldsValid_iff env s now author pipeline digests known
      ((items.map author.hypothesise).map (markExhausted env s))
      (by simpa using inhabited) (by simpa using few) (by rwa [updatedIds])]
    have steps : buildInitialRepairPlan env s now author =
        (initialRecord env s now author pipeline
          ((items.map author.hypothesise).map (markExhausted env s))).construct := by
      rw [buildInitialRepairPlan, failed]
      simp only [Option.bind_eq_bind, Option.bind_some, built, guard, known, inhabited, ne_eq,
        not_false_iff, if_true]
      rfl
    rw [steps]
    simp only [RepairPlan.construct_eq_some, exists_and_left, exists_eq, and_true]
  constructor
  · rintro ⟨plan, built⟩
    obtain ⟨found, items, same, made, -⟩ := buildInitialRepairPlan_cases built
    rw [failed] at same
    cases same
    exact ⟨(total items made).mp ⟨plan, built⟩, items, made⟩
  · rintro ⟨fits, items, made⟩
    exact (total items made).mpr fits

end Plan

end MrAgent
