import Mathlib
import MrAgent.GroupedList
import MrAgent.RepairPlan

namespace MrAgent

/-!
# Root-cause groups

`build_root_cause_groups` puts the failed jobs with one normalised diagnostic
into one group. Its identity is the start of a SHA-256 value, so that it is an
admissible identity of a work item whatever the diagnostic was.
-/

/-- A digit of a hexadecimal digest. -/
def hexadecimal (c : Char) : Bool :=
  c ∈ "0123456789abcdef".toList

/-- The patterns of `normalize_diagnostic` and `_causal_line`, `str.lower`, and SHA-256 in
hexadecimal digits. -/
structure GroupingEnv where
  normalizeDiagnostic : String → String → String
  causalLine : String → String
  lower : String → String
  sha256 : String → String
  sha256_length : ∀ text, (sha256 text).length = 64
  sha256_hexadecimal : ∀ text, ∀ c ∈ (sha256 text).toList, hexadecimal c = true

namespace FailedJob

/-- `job.get("name") or job.get("job_name") or "unknown"` -/
def label (job : FailedJob) : String :=
  orElse job.name (orElse job.jobName "unknown")

/-- The diagnostic that a job is grouped by. -/
def groupedDiagnostic (job : FailedJob) : String :=
  match job.causalLines with
  | line :: _ => line
  | [] =>
    if job.evidenceMode = "raw_log_fallback" ∨ job.evidenceMode = "evidence_unavailable" then ""
    else orElse job.logTail job.diagnostic

variable (env : GroupingEnv)

/-- The normalised diagnostic, or the job and its status when there is none. -/
def identity (job : FailedJob) : String :=
  orElse (env.normalizeDiagnostic job.groupedDiagnostic job.label)
    ("job:" ++ env.lower job.label ++ ":" ++ job.status)

/-- The first twenty digits of the digest of the identity. -/
def rootCauseId (job : FailedJob) : String :=
  String.ofList ((env.sha256 (job.identity env)).toList.take 20)

end FailedJob

section Groups

variable (env : GroupingEnv)

/-- The rank of a job name in `_canonical_job_name`. -/
def jobNameRank (lowered : String) : Nat :=
  if "build".toList <:+: lowered.toList then 0
  else if "coverage".toList <:+: lowered.toList then 1
  else if "format".toList <:+: lowered.toList then 2
  else 3

/-- `_canonical_job_name` -/
def canonicalJobName (names : List String) : String :=
  (names.argmin fun name => toLex (jobNameRank (env.lower name), env.lower name)).getD ""

/-- `sorted({name for job in jobs})` -/
def sortedJobNames (jobs : List FailedJob) : List String :=
  (jobs.map (·.label)).eraseDups.insertionSort (· ≤ ·)

/-- The group of the jobs with one identity. -/
def rootCauseGroup (members : String × List FailedJob) : RootCauseGroup where
  rootCauseId := members.1
  canonicalDiagnostic := env.causalLine ((members.2.head?.map (·.groupedDiagnostic)).getD "")
  canonicalJobName := canonicalJobName env (sortedJobNames members.2)
  jobNames := sortedJobNames members.2

/-- The order of the groups: canonical job name, identity. -/
def groupLe (first second : RootCauseGroup) : Prop :=
  first.canonicalJobName < second.canonicalJobName ∨
    (first.canonicalJobName = second.canonicalJobName ∧ first.rootCauseId ≤ second.rootCauseId)

instance : DecidableRel groupLe := fun first second =>
  inferInstanceAs (Decidable (first.canonicalJobName < second.canonicalJobName ∨
    (first.canonicalJobName = second.canonicalJobName ∧ first.rootCauseId ≤ second.rootCauseId)))

/-- `build_root_cause_groups` -/
def buildRootCauseGroups (failedJobs : List FailedJob) : List RootCauseGroup :=
  ((GroupedList.groupOn (FailedJob.rootCauseId env) failedJobs).map
    (rootCauseGroup env)).insertionSort groupLe

end Groups

/-! ## Names and identities -/

variable {env : GroupingEnv}

theorem mem_sortedJobNames
    {jobs : List FailedJob}
    {name : String} :
    name ∈ sortedJobNames jobs ↔ ∃ job ∈ jobs, job.label = name := by
  rw [sortedJobNames, List.mem_insertionSort, List.mem_eraseDups, List.mem_map]

theorem sortedJobNames_nodup
    (jobs : List FailedJob) :
    (sortedJobNames jobs).Nodup :=
  (List.perm_insertionSort _ _).nodup_iff.mpr (GroupedList.nodup_eraseDups _)

variable (job : FailedJob)

theorem rootCauseId_length :
    (job.rootCauseId env).length = 20 := by
  have full := env.sha256_length (job.identity env)
  rw [← String.length_toList] at full
  rw [FailedJob.rootCauseId, String.length_ofList, List.length_take, full]
  rfl

theorem rootCauseId_hexadecimal :
    ∀ c ∈ (job.rootCauseId env).toList, hexadecimal c = true := by
  intro c member
  rw [FailedJob.rootCauseId, String.toList_ofList] at member
  exact env.sha256_hexadecimal _ c (List.mem_of_mem_take member)

/-! ## The groups -/

variable {failedJobs : List FailedJob}

variable {group : RootCauseGroup}

theorem mem_buildRootCauseGroups
    (member : group ∈ buildRootCauseGroups env failedJobs) :
    (∃ job ∈ failedJobs, job.rootCauseId env = group.rootCauseId) ∧
      ∀ name, name ∈ group.jobNames ↔
        ∃ job ∈ failedJobs, job.rootCauseId env = group.rootCauseId ∧ job.label = name := by
  rw [buildRootCauseGroups, List.mem_insertionSort, List.mem_map] at member
  obtain ⟨members, inGroups, rfl⟩ := member
  have grouped := GroupedList.grouped_groupOn (FailedJob.rootCauseId env) failedJobs
  refine ⟨grouped.inhabited members inGroups, fun name => ?_⟩
  rw [rootCauseGroup, mem_sortedJobNames, grouped.members members inGroups]
  simp only [List.mem_filter, beq_iff_eq, and_assoc]

theorem jobNames_nodup
    (member : group ∈ buildRootCauseGroups env failedJobs) :
    group.jobNames.Nodup := by
  rw [buildRootCauseGroups, List.mem_insertionSort, List.mem_map] at member
  obtain ⟨members, -, rfl⟩ := member
  exact sortedJobNames_nodup members.2

theorem rootCauseIds_nodup
    (failedJobs : List FailedJob) :
    ((buildRootCauseGroups env failedJobs).map (·.rootCauseId)).Nodup := by
  have sorted := (List.perm_insertionSort groupLe
    ((GroupedList.groupOn (FailedJob.rootCauseId env) failedJobs).map
      (rootCauseGroup env))).map (·.rootCauseId)
  refine sorted.nodup_iff.mpr ?_
  rw [List.map_map]
  exact (GroupedList.grouped_groupOn (FailedJob.rootCauseId env) failedJobs).names

theorem exists_rootCauseGroup
    {job : FailedJob}
    (failed : job ∈ failedJobs) :
    ∃ group ∈ buildRootCauseGroups env failedJobs, group.rootCauseId = job.rootCauseId env ∧
      job.label ∈ group.jobNames := by
  have grouped := GroupedList.grouped_groupOn (FailedJob.rootCauseId env) failedJobs
  obtain ⟨members, inGroups, same⟩ := grouped.covered job failed
  have built : rootCauseGroup env members ∈ buildRootCauseGroups env failedJobs := by
    rw [buildRootCauseGroups, List.mem_insertionSort]
    exact List.mem_map_of_mem inGroups
  exact ⟨_, built, same, ((mem_buildRootCauseGroups built).2 _).mpr ⟨job, failed, same.symm, rfl⟩⟩

end MrAgent
