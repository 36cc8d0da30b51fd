import MrAgent.InitialPlan

namespace MrAgent

/-!
# Totality of the initial plan

Whatever the failed jobs are called and however many share a cause, each of the
first twenty causes has one work item once the plan is built. What can keep the
plan from being built is a group of more than twenty job names, or of names that
white space or the cut after five hundred characters makes empty or equal.
-/

theorem existsUnique_of_perm_map
    {α β : Type}
    {key : α → β}
    {items : List α}
    {keys : List β}
    (same : (items.map key).Perm keys)
    (distinct : keys.Nodup)
    {wanted : β}
    (member : wanted ∈ keys) :
    ∃! item, item ∈ items ∧ key item = wanted := by
  obtain ⟨item, inItems, found⟩ := List.mem_map.mp (same.mem_iff.mpr member)
  refine ⟨item, ⟨inItems, found⟩, fun other ⟨otherIn, otherFound⟩ => ?_⟩
  exact List.inj_on_of_nodup_map (same.nodup_iff.mpr distinct) otherIn inItems
    (otherFound.trans found.symm)

theorem built_plan_covers
    {env : PlanEnv}
    {s : AgentState}
    {now : String}
    {author : PlanAuthor}
    {pipeline : ToolResult}
    (failed : latestFailedPipeline s.messages = some pipeline)
    (identified : IdentifiedGroups (pipelineGroups env pipeline))
    {plan : RepairPlan}
    (built : buildInitialRepairPlan env s now author = some plan) :
    ∀ group ∈ (pipelineGroups env pipeline).take maxRepairWorkItems,
      ∃! item, item ∈ plan.workItems ∧ item.workItemId = group.rootCauseId := by
  intro group member
  obtain ⟨found, items, same, made, -, updated, -⟩ := buildInitialRepairPlan_cases built
  rw [failed] at same
  cases same
  have ids : (plan.workItems.map (·.workItemId)).Perm
      (((pipelineGroups env pipeline).take maxRepairWorkItems).map (·.rootCauseId)) := by
    rw [updated, updated_ids]
    exact workItems_ids identified made
  exact existsUnique_of_perm_map ids
    ((List.take_sublist maxRepairWorkItems _).map _ |>.nodup identified.distinct)
    (List.mem_map_of_mem member)

/-- The initial plan is built and covers its root causes exactly when every group fits into a
work item and the fields taken over fit into a plan. -/
theorem initial_plan_covers_iff
    {env : PlanEnv}
    {s : AgentState}
    {now : String}
    {author : PlanAuthor}
    {pipeline : ToolResult}
    {grouping : GroupingEnv}
    {jobs : List FailedJob}
    (digests : ∀ payload, (env.digest payload).length = 64)
    (paths : ∀ text, env.diagnosticPath text = "" ∨
      ∃ raw, safePath raw = some (env.diagnosticPath text))
    (failed : latestFailedPipeline s.messages = some pipeline)
    (grouped : pipelineGroups env pipeline = buildRootCauseGroups grouping jobs)
    (nonempty : jobs ≠ [])
    (known : (pipelineIdentity env s pipeline).baselineSha ≠ "") :
    PlannedAndCovered env s now author (buildRootCauseGroups grouping jobs) ↔
      PlanRecordFits env s now author pipeline ∧
        ∀ group ∈ (buildRootCauseGroups grouping jobs).take maxRepairWorkItems,
          GroupFits pipeline group := by
  have identified := identifiedGroups grouping jobs
  rw [← grouped] at identified ⊢
  have inhabited : pipelineGroups env pipeline ≠ [] := by
    obtain ⟨job, rest, rfl⟩ := List.exists_cons_of_ne_nil nonempty
    obtain ⟨group, member, -⟩ := @exists_rootCauseGroup grouping (job :: rest) job List.mem_cons_self
    rw [grouped]
    exact List.ne_nil_of_mem member
  rw [← workItems_isSome_iff paths identified,
    ← plan_isSome_iff digests failed inhabited known identified]
  constructor
  · rintro ⟨plan, built, -⟩
    exact ⟨plan, built⟩
  · rintro ⟨plan, built⟩
    exact ⟨plan, built, built_plan_covers failed identified built⟩

/-! ## Crowded causes -/

variable {group : RootCauseGroup}

theorem groupJobNames_of_inked
    (related : List PipelineWorkItem)
    (nonempty : group.jobNames ≠ [])
    (distinct : group.jobNames.Nodup)
    (inked : ∀ name ∈ group.jobNames, Inked name) :
    groupJobNames group related = group.jobNames := by
  have kept : (group.jobNames.filter fun name => strip name.toList ≠ []) = group.jobNames := by
    refine List.filter_eq_self.mpr fun name member => decide_eq_true fun blank => ?_
    obtain ⟨c, inName, letter⟩ := inked name member
    rw [isSpace_of_strip_eq_nil blank inName] at letter
    cases letter
  rw [groupJobNames, kept, GroupedList.eraseDups_eq_self distinct]
  exact if_pos nonempty

theorem not_groupFits_of_crowded
    {pipeline : ToolResult}
    (crowded : 20 < group.jobNames.length)
    (distinct : group.jobNames.Nodup)
    (inked : ∀ name ∈ group.jobNames, Inked name) :
    ¬ GroupFits pipeline group := by
  intro fits
  have nonempty : group.jobNames ≠ [] := List.ne_nil_of_length_pos (by omega)
  have few := fits.names.1
  rw [groupJobNames_of_inked _ nonempty distinct inked] at few
  omega

theorem single_cause
    {grouping : GroupingEnv}
    {jobs : List FailedJob}
    (nonempty : jobs ≠ [])
    {id : String}
    (one : ∀ job ∈ jobs, job.rootCauseId grouping = id) :
    ∃ group, buildRootCauseGroups grouping jobs = [group] ∧
      ∀ name, name ∈ group.jobNames ↔ ∃ job ∈ jobs, job.label = name := by
  obtain ⟨job, rest, rfl⟩ := List.exists_cons_of_ne_nil nonempty
  obtain ⟨group, member, same, -⟩ :=
    @exists_rootCauseGroup grouping (job :: rest) job List.mem_cons_self
  have constant : ∀ other ∈ buildRootCauseGroups grouping (job :: rest), other.rootCauseId = id := by
    intro other isGroup
    obtain ⟨⟨source, isJob, found⟩, -⟩ := mem_buildRootCauseGroups isGroup
    rw [← found, one source isJob]
  have distinct := @rootCauseIds_nodup grouping (job :: rest)
  rw [List.eq_replicate_of_mem (List.forall_mem_map.mpr constant), List.nodup_replicate,
    List.length_map] at distinct
  have positive := List.length_pos_of_mem member
  obtain ⟨only, found⟩ := List.length_eq_one_iff.mp (le_antisymm distinct positive)
  obtain rfl : group = only := List.mem_singleton.mp (found ▸ member)
  refine ⟨group, found, fun name => ?_⟩
  rw [(mem_buildRootCauseGroups member).2 name]
  refine exists_congr fun source => and_congr_right fun isJob => and_iff_right ?_
  rw [one source isJob, constant group member]

/-! ## Samples -/

namespace InitialPlanSample

/-- Diagnostics that are their own normal forms. -/
def grouping : GroupingEnv where
  normalizeDiagnostic := fun diagnostic _ => diagnostic
  causalLine := id
  lower := id
  sha256 := fun _ => "6a4e69c1e4976589dec58f8fb75544710d064e618067a7364b5cdf3fd587518e"
  sha256_length := fun _ => by decide
  sha256_hexadecimal := fun _ => by decide

/-- Digests of sixty-four characters. -/
def env : PlanEnv where
  digest := fun _ => String.ofList (List.replicate 64 'd')
  buildRootCauseGroups := fun _ => []
  diagnosticPath := fun _ => ""
  lower := id
  nativeBackend := false
  exhaustedRootIds := fun _ => []

/-- Jobs that fail for one reason. -/
def jobs (names : List String) : List FailedJob :=
  names.map fun name => { name := name, causalLines := ["ld: cannot find -lm"] }

/-- The failed Pipeline of these jobs. -/
def pipeline (names : List String) : ToolResult where
  status := .success
  pipelineStatus := .failed
  requestedCommitSha := "b"
  matchedCommitSha := "b"
  pipelineId := some 7
  rootCauseGroups := buildRootCauseGroups grouping (jobs names)

/-- The agent after it has read the Pipeline. -/
def state (names : List String) : AgentState where
  projectId := "p"
  mrId := 1
  messages :=
    [{ toolCalls := [⟨"f", .fetchPipelineLogs, {}⟩] },
      { toolCallId := "f", content := .object (pipeline names) }]

/-- The jobs of a matrix build. -/
def matrix (size : Nat) : List String :=
  (List.range size).map fun index => "build-" ++ String.ofList [Char.ofNat (97 + index)]

variable {names : List String}

theorem rootCauseId_jobs
    {job : FailedJob}
    (_ : job ∈ jobs names) :
    job.rootCauseId grouping = "6a4e69c1e4976589dec5" := by
  have start : String.ofList
      ("6a4e69c1e4976589dec58f8fb75544710d064e618067a7364b5cdf3fd587518e".toList.take 20) =
      "6a4e69c1e4976589dec5" := by decide
  have value : ∀ text, grouping.sha256 text =
      "6a4e69c1e4976589dec58f8fb75544710d064e618067a7364b5cdf3fd587518e" := fun _ => rfl
  rw [FailedJob.rootCauseId, value]
  exact start

theorem label_jobs
    (named : "" ∉ names)
    (name : String) :
    (∃ job ∈ jobs names, job.label = name) ↔ name ∈ names := by
  simp only [jobs, List.mem_map, exists_exists_and_eq_and]
  constructor
  · rintro ⟨other, member, rfl⟩
    rw [FailedJob.label, orElse, if_neg fun empty => named (by rwa [← empty])]
    exact member
  · intro member
    refine ⟨name, member, ?_⟩
    rw [FailedJob.label, orElse, if_neg fun empty => named (by rwa [← empty])]

theorem grouped_pipeline
    (nonempty : names ≠ []) :
    pipelineGroups env (pipeline names) = buildRootCauseGroups grouping (jobs names) := by
  have someJobs : jobs names ≠ [] := mt List.map_eq_nil_iff.mp nonempty
  obtain ⟨group, found, -⟩ := single_cause someJobs fun job member => rootCauseId_jobs member
  have groups : (pipeline names).rootCauseGroups = buildRootCauseGroups grouping (jobs names) := rfl
  rw [pipelineGroups, groups, found]
  rfl

theorem env_digest
    (payload : DigestPayload) :
    (env.digest payload).length = 64 := by
  have value : env.digest payload = String.ofList (List.replicate 64 'd') := rfl
  rw [value, String.length_ofList, List.length_replicate]

end InitialPlanSample

open InitialPlanSample in
theorem two_jobs_are_planned :
    PlannedAndCovered env (state (matrix 2)) "now" {}
      (buildRootCauseGroups grouping (jobs (matrix 2))) := by
  have groups : buildRootCauseGroups grouping (jobs (matrix 2)) =
      [⟨"6a4e69c1e4976589dec5", "ld: cannot find -lm", "build-a", matrix 2⟩] := by
    decide +kernel
  refine (initial_plan_covers_iff env_digest (fun _ => Or.inl rfl) rfl
    (grouped_pipeline (by decide)) (by decide) (by decide)).mpr ⟨⟨by decide, by decide, by decide,
      by decide, by decide⟩, fun group member => ?_⟩
  rw [groups] at member
  rw [List.mem_singleton.mp member]
  refine ⟨by decide +kernel, fun _ isPrimary => ?_, fun _ isPrimary => ?_⟩
  · cases isPrimary
  · cases isPrimary

open InitialPlanSample in
/-- Twenty-one jobs that fail for one reason make one group, and no plan. -/
theorem one_cause_of_many_jobs_is_not_planned :
    latestFailedPipeline (state (matrix 21)).messages = some (pipeline (matrix 21)) ∧
      (pipelineIdentity env (state (matrix 21)) (pipeline (matrix 21))).baselineSha ≠ "" ∧
      pipelineGroups env (pipeline (matrix 21)) =
        buildRootCauseGroups grouping (jobs (matrix 21)) ∧
      ¬ PlannedAndCovered env (state (matrix 21)) "now" {}
        (buildRootCauseGroups grouping (jobs (matrix 21))) := by
  have distinct : (matrix 21).Nodup := by decide +kernel
  have inked : ∀ name ∈ matrix 21, Inked name := by decide +kernel
  refine ⟨rfl, by decide, grouped_pipeline (by decide), ?_⟩
  obtain ⟨group, found, names⟩ := single_cause (by decide : jobs (matrix 21) ≠ [])
    fun job member => rootCauseId_jobs member
  simp only [label_jobs (by decide +kernel : "" ∉ matrix 21)] at names
  have isGroup : group ∈ buildRootCauseGroups grouping (jobs (matrix 21)) := by
    rw [found]
    exact List.mem_cons_self
  have crowded : 20 < group.jobNames.length :=
    (List.subperm_of_subset distinct fun name member => (names name).mpr member).length_le
  have misfit : ¬ GroupFits (pipeline (matrix 21)) group :=
    not_groupFits_of_crowded crowded (jobNames_nodup isGroup)
      fun name member => inked name ((names name).mp member)
  rintro ⟨plan, built, -⟩
  obtain ⟨found', items, same, made, -⟩ := buildInitialRepairPlan_cases built
  cases same
  have fits := (workItems_isSome_iff (fun _ => Or.inl rfl)
    (by rw [grouped_pipeline (by decide)]; exact identifiedGroups _ _)).mp ⟨items, made⟩
  rw [grouped_pipeline (by decide), found] at fits
  exact misfit (fits group List.mem_cons_self)

end MrAgent
