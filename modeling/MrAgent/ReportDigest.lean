import MrAgent.FinalReport

namespace MrAgent

open CappedList

/-!
# Digests of stored report inputs

A stored input is read with every text cleaned and every list capped, while the
builder copies what the repair recorded. The digest survives exactly if nothing
that the builder copies is changed by reading it.
-/

/-! ## Reading a document -/

theorem mapM_ok_self_iff
    {α ε : Type}
    {read : α → Except ε α}
    {values : List α} :
    values.mapM read = .ok values ↔ ∀ value ∈ values, read value = .ok value := by
  induction values with
  | nil =>
      exact iff_of_true rfl nofun
  | cons value rest ih =>
      rw [List.mapM_cons, List.forall_mem_cons, ← ih]
      cases read value with
      | error message =>
          simp [bind, Except.bind]
      | ok first =>
          cases rest.mapM read with
          | error message =>
              simp [bind, Except.bind]
          | ok others =>
              simp [bind, Except.bind, pure, Except.pure]

theorem mem_of_mapM_ok
    {α β ε : Type}
    {read : α → Except ε β}
    {values : List α}
    {output : List β}
    (accepted : values.mapM read = .ok output)
    (result : β) :
    result ∈ output ↔ ∃ value ∈ values, read value = .ok result := by
  induction values generalizing output with
  | nil =>
      cases accepted
      simp
  | cons value rest ih =>
      rw [List.mapM_cons] at accepted
      cases first : read value with
      | error message =>
          simp [first, bind, Except.bind] at accepted
      | ok head =>
          cases others : rest.mapM read with
          | error message =>
              simp [first, others, bind, Except.bind] at accepted
          | ok tail =>
              have whole : head :: tail = output := by
                simpa [first, others, bind, Except.bind, pure, Except.pure] using accepted
              rw [← whole, List.mem_cons, ih others]
              constructor
              · rintro (rfl | ⟨later, member, found⟩)
                · exact ⟨value, List.mem_cons_self, first⟩
                · exact ⟨later, List.mem_cons_of_mem value member, found⟩
              · rintro ⟨other, member, found⟩
                rcases List.mem_cons.mp member with rfl | later
                · rw [first] at found
                  exact Or.inl (Except.ok.inj found).symm
                · exact Or.inr ⟨other, later, found⟩

theorem getD_nonemptyText (text : String) : (nonemptyText text).getD "" = text := by
  unfold nonemptyText
  split
  · rename_i blank
    exact blank.symm
  · rfl

namespace FinalRepairReportInput

theorem make_eq_ok {fields : ReportFields} {value : FinalRepairReportInput} :
    make fields = .ok value ↔ value.toReportFields = fields := by
  unfold make
  split
  · rename_i accepted
    rw [Except.ok.injEq]
    constructor
    · rintro rfl
      rfl
    · intro same
      cases value
      simp only at same
      subst same
      rfl
  · rename_i message refused
    constructor
    · exact nofun
    · intro same
      rw [← same, value.accepted] at refused
      cases refused

theorem nonemptyText_inj {first second : String} :
    nonemptyText first = nonemptyText second ↔ first = second := by
  constructor
  · intro same
    rw [← getD_nonemptyText first, same, getD_nonemptyText]
  · exact congrArg nonemptyText

theorem toDict_inj {first second : FinalRepairReportInput} :
    first.toDict = second.toDict ↔ first = second := by
  constructor
  · intro same
    have members : first.toReportMembers = second.toReportMembers :=
      congrArg ReportDocument.toReportMembers same
    have source := nonemptyText_inj.mp (congrArg ReportDocument.finalCoverageSource same)
    have status := nonemptyText_inj.mp (congrArg ReportDocument.finalCoverageStatus same)
    obtain ⟨⟨firstMembers, _, _⟩, _⟩ := first
    obtain ⟨⟨secondMembers, _, _⟩, _⟩ := second
    simp only at members source status
    subst members source status
    rfl
  · exact congrArg toDict

end FinalRepairReportInput

/-- A list that the report's `_unique_text` leaves alone. -/
def KeptList (env : RepairTextEnv) (limit count : Nat) (values : List String) : Prop :=
  (∀ value ∈ values, env.cleanText value limit = value ∧ value ≠ "") ∧ values.Nodup ∧
    values.length ≤ count

variable {env : RepairTextEnv}

theorem uniqueClean_eq_self_iff
    {limit count : Nat}
    {values : List String}
    (positive : 0 < count) :
    env.uniqueClean limit count values = values ↔ KeptList env limit count values := by
  rw [RepairTextEnv.uniqueClean, gather_eq_self_iff positive, KeptList]
  simp only [RepairTextEnv.keptClean, nonemptyText_eq_some]

theorem readFinalDiff_eq_self_iff {diff : FinalRepairDiff} :
    env.readFinalDiff diff = .ok diff ↔
      env.safePath diff.path = some diff.path ∧
        oneOf fileChangeTypes "modified" diff.changeType = diff.changeType := by
  unfold RepairTextEnv.readFinalDiff
  cases env.safePath diff.path with
  | none =>
      simp
  | some path =>
      obtain ⟨own, type, _, _, _, _, _⟩ := diff
      simp

/-- Fields that reading leaves alone. -/
structure Reread (env : RepairTextEnv) (fields : ReportFields) : Prop where
  repairTaskId : env.cleanText fields.repairTaskId 128 = fields.repairTaskId
  projectId : env.cleanText fields.projectId 300 = fields.projectId
  prUrl : env.cleanText fields.prUrl 1000 = fields.prUrl
  sourcePipelineId : 0 ≤ fields.sourcePipelineId
  sourceSha : env.cleanText fields.sourceSha 64 = fields.sourceSha
  baseSha : env.cleanText fields.baseSha 64 = fields.baseSha
  finalSha : env.cleanText fields.finalSha 64 = fields.finalSha
  finalPipelineId : 0 ≤ fields.finalPipelineId
  finalPipelineStatus : env.cleanText fields.finalPipelineStatus 32 = fields.finalPipelineStatus
  selectedCategories : KeptList env 32 8 fields.selectedCategories
  failedJobs : KeptList env 120 40 fields.failedJobs
  causalLines : KeptList env 500 60 fields.causalLines
  diffs : ∀ diff ∈ fields.diffs, env.readFinalDiff diff = .ok diff
  finalCoverageSource : env.cleanText fields.finalCoverageSource 32 = fields.finalCoverageSource
  finalCoverageStatus : env.cleanText fields.finalCoverageStatus 64 = fields.finalCoverageStatus

theorem readReport_eq_self_iff {value : FinalRepairReportInput} :
    (env.readReport value.toDict value.diffs = value.toReportFields ∧
        ∀ diff ∈ value.diffs, env.readFinalDiff diff = .ok diff) ↔
      Reread env value.toReportFields := by
  obtain ⟨⟨⟨task, project, iid, url, sourceId, source, base, final, finalId, status, coverage,
    categories, jobs, lines, diffs⟩, coverageSource, coverageStatus⟩, accepted⟩ := value
  simp only [RepairTextEnv.readReport, FinalRepairReportInput.toDict, ReportFields.mk.injEq,
    ReportMembers.mk.injEq, getD_nonemptyText, true_and, and_true, sup_eq_right,
    uniqueClean_eq_self_iff (show 0 < 8 by decide), uniqueClean_eq_self_iff (show 0 < 40 by decide),
    uniqueClean_eq_self_iff (show 0 < 60 by decide)]
  constructor
  · rintro ⟨⟨⟨task, project, url, sourceId, source, base, final, finalId, status, categories, jobs,
      lines⟩, coverageSource, coverageStatus⟩, diffs⟩
    exact ⟨task, project, url, sourceId, source, base, final, finalId, status, categories, jobs,
      lines, diffs, coverageSource, coverageStatus⟩
  · rintro ⟨task, project, url, sourceId, source, base, final, finalId, status, categories, jobs,
      lines, diffs, coverageSource, coverageStatus⟩
    exact ⟨⟨⟨task, project, url, sourceId, source, base, final, finalId, status, categories, jobs,
      lines⟩, coverageSource, coverageStatus⟩, diffs⟩

theorem reportFromDict_toDict_iff {value : FinalRepairReportInput} :
    env.reportFromDict value.toDict = .ok value ↔ Reread env value.toReportFields := by
  rw [← readReport_eq_self_iff, RepairTextEnv.reportFromDict]
  have schema : ¬value.toDict.schemaVersion ≠ 1 := fun different => different rfl
  rw [if_neg schema]
  constructor
  · intro read
    cases parsed : value.toDict.diffs.mapM env.readFinalDiff with
    | error message =>
        rw [parsed] at read
        cases read
    | ok diffs =>
        rw [parsed] at read
        have fields := FinalRepairReportInput.make_eq_ok.mp read
        have own : value.diffs = diffs :=
          congrArg (fun fields : ReportFields => fields.diffs) fields
        rw [← own] at fields parsed
        exact ⟨fields.symm, mapM_ok_self_iff.mp parsed⟩
  · rintro ⟨fields, diffs⟩
    have parsed : value.toDict.diffs.mapM env.readFinalDiff = .ok value.diffs :=
      mapM_ok_self_iff.mpr diffs
    rw [parsed]
    exact FinalRepairReportInput.make_eq_ok.mpr fields.symm

theorem failedJobs_of_reportFromDict
    {document : ReportDocument}
    {read : FinalRepairReportInput}
    (decoded : env.reportFromDict document = .ok read) :
    read.failedJobs = env.uniqueClean 120 40 document.failedJobs := by
  unfold RepairTextEnv.reportFromDict at decoded
  split at decoded
  · cases decoded
  · split at decoded
    · cases decoded
    · have fields := FinalRepairReportInput.make_eq_ok.mp decoded
      exact congrArg (fun fields : ReportFields => fields.failedJobs) fields

/-! ## What the builder copies -/

variable {value : FinalRepairReportInput}

theorem buildFinalReportInput_eq_input
    {settings : ReportSettings}
    {task : ReportedTask}
    {comparison : RepositoryCompare}
    (built : buildFinalReportInput env settings task comparison = .input value) :
    ∃ manifest diffs, task.manifest = some manifest ∧
      parseGitlabCompareDiffs env settings comparison.diffs = .ok diffs ∧
      value.toReportFields = reportFields task manifest diffs := by
  unfold buildFinalReportInput at built
  cases stored : task.manifest with
  | none =>
      simp [stored] at built
  | some manifest =>
      simp only [stored] at built
      split at built
      · cases built
      · split at built
        · cases built
        · split at built
          · cases built
          · split at built
            · cases built
            · split at built
              · cases built
              · split at built
                · cases built
                · rename_i diffs parsed
                  split at built
                  · cases built
                  · split at built
                    · rename_i made
                      cases built
                      exact ⟨manifest, diffs, rfl, parsed,
                        FinalRepairReportInput.make_eq_ok.mp made⟩
                    · cases built

theorem changeType_listed (value : CompareDiff) :
    oneOf fileChangeTypes "modified" value.changeType = value.changeType := by
  unfold CompareDiff.changeType
  split
  · rfl
  · split
    · rfl
    · split <;> rfl

variable {diffs : List FinalRepairDiff}

theorem parsed_diffs_reread_iff
    {settings : ReportSettings}
    {values : List CompareDiff}
    (parsed : parseGitlabCompareDiffs env settings values = .ok diffs) :
    (∀ diff ∈ diffs, env.readFinalDiff diff = .ok diff) ↔
      ∀ value ∈ values, ∀ path, env.safePath value.path = some path →
        env.safePath path = some path := by
  unfold parseGitlabCompareDiffs at parsed
  split at parsed
  · cases parsed
  · split at parsed
    · cases parsed
    · rename_i output read
      cases parsed
      have single : ∀ value : CompareDiff, ∀ path, env.safePath value.path = some path →
          ∃ diff, env.readFinalDiff (value.bounded (settings.patchLimits values.length)) = .ok diff ∧
            diff.path = path ∧
            oneOf fileChangeTypes "modified" diff.changeType = diff.changeType := by
        intro value path safe
        unfold RepairTextEnv.readFinalDiff
        have own : (value.bounded (settings.patchLimits values.length)).path = value.path := rfl
        rw [own, safe]
        refine ⟨_, rfl, rfl, ?_⟩
        have type : (value.bounded (settings.patchLimits values.length)).changeType =
            value.changeType := rfl
        simp only [type, changeType_listed]
      constructor
      · intro reread value member path safe
        obtain ⟨diff, own, same, _⟩ := single value path safe
        have inside : diff ∈ output.mergeSort fun first second => first.path ≤ second.path := by
          rw [List.mem_mergeSort]
          exact (mem_of_mapM_ok read diff).mpr ⟨value, member, own⟩
        rw [← same]
        exact (readFinalDiff_eq_self_iff.mp (reread diff inside)).1
      · intro settled diff inside
        rw [List.mem_mergeSort] at inside
        obtain ⟨value, member, own⟩ := (mem_of_mapM_ok read diff).mp inside
        cases safe : env.safePath value.path with
        | none =>
            have unsafe_ : env.safePath
                (value.bounded (settings.patchLimits values.length)).path = none := safe
            rw [RepairTextEnv.readFinalDiff, unsafe_] at own
            cases own
        | some path =>
            obtain ⟨other, ownOther, same, type⟩ := single value path safe
            rw [own] at ownOther
            cases ownOther
            rw [readFinalDiff_eq_self_iff, same]
            exact ⟨settled value member path safe, type⟩

theorem distinctTexts_nodup (texts : List String) : (distinctTexts texts).Nodup :=
  GroupedList.nodup_eraseDups _

theorem nonempty_of_mem_distinctTexts
    {texts : List String}
    {text : String}
    (member : text ∈ distinctTexts texts) :
    text ≠ "" := by
  have selected := (List.mem_filter.mp (List.mem_eraseDups.mp member)).2
  simpa using selected

theorem keptList_causalLines_iff (state : ReportedRepair) :
    KeptList env 500 60 state.causalLines ↔
      ∀ line ∈ state.causalLines, env.cleanText line 500 = line := by
  constructor
  · rintro ⟨clean, _, _⟩ line member
    exact (clean line member).1
  · intro clean
    refine ⟨fun line member => ⟨clean line member, ?_⟩, ?_, ?_⟩
    · exact nonempty_of_mem_distinctTexts (List.mem_of_mem_take member)
    · exact (distinctTexts_nodup _).sublist (List.take_sublist _ _)
    · exact List.length_take_le _ _

/-- What the builder copies is as short, clean and distinct as what is read: cleaning changes no
text and no path, and the lists are within their limits. -/
structure StoredAsBuilt
    (env : RepairTextEnv)
    (task : ReportedTask)
    (manifest : RepairCommitManifest)
    (comparison : RepositoryCompare) : Prop where
  taskId : env.cleanText task.taskId.text 128 = task.taskId.text
  projectId : env.cleanText manifest.projectId 300 = manifest.projectId
  prUrl : env.cleanText task.prUrl 1000 = task.prUrl
  sourcePipelineId : 0 ≤ task.sourcePipeline.1
  sourceSha : env.cleanText task.sourcePipeline.2 64 = task.sourcePipeline.2
  baseSha : env.cleanText manifest.baseCommitSha 64 = manifest.baseCommitSha
  finalSha : env.cleanText manifest.finalRepairSha 64 = manifest.finalRepairSha
  finalPipelineId : 0 ≤ task.repairState.latestPipelineId
  finalPipelineStatus :
    env.cleanText task.repairState.finalPipelineStatus 32 = task.repairState.finalPipelineStatus
  coverageSource :
    env.cleanText task.repairState.finalCoverageSource 32 = task.repairState.finalCoverageSource
  coverageStatus :
    env.cleanText task.repairState.finalCoverageStatus 64 = task.repairState.finalCoverageStatus
  selectedCategories : KeptList env 32 8 task.repairState.selectedCategories
  failedJobs : KeptList env 120 40 task.repairState.failedJobs
  causalLines : ∀ line ∈ task.repairState.causalLines, env.cleanText line 500 = line
  paths : ∀ diff ∈ comparison.diffs, ∀ path, env.safePath diff.path = some path →
    env.safePath path = some path

theorem reread_built_iff
    {settings : ReportSettings}
    {task : ReportedTask}
    {manifest : RepairCommitManifest}
    {comparison : RepositoryCompare}
    (parsed : parseGitlabCompareDiffs env settings comparison.diffs = .ok diffs) :
    Reread env (reportFields task manifest diffs) ↔
      StoredAsBuilt env task manifest comparison := by
  constructor
  · rintro ⟨task, project, url, sourceId, source, base, final, finalId, status, categories, jobs,
      lines, diffs, coverageSource, coverageStatus⟩
    exact ⟨task, project, url, sourceId, source, base, final, finalId, status, coverageSource,
      coverageStatus, categories, jobs, (keptList_causalLines_iff _).mp lines,
      (parsed_diffs_reread_iff parsed).mp diffs⟩
  · rintro ⟨task, project, url, sourceId, source, base, final, finalId, status, coverageSource,
      coverageStatus, categories, jobs, lines, paths⟩
    exact ⟨task, project, url, sourceId, source, base, final, finalId, status, categories, jobs,
      (keptList_causalLines_iff _).mpr lines, (parsed_diffs_reread_iff parsed).mpr paths,
      coverageSource, coverageStatus⟩

/-- The digest of a built input survives storage exactly if reading changes nothing that the
builder copied; the two documents are assumed not to collide. -/
theorem report_digest_survives_iff
    (env : RepairTextEnv)
    (settings : ReportSettings)
    (task : ReportedTask)
    (comparison : RepositoryCompare)
    (digest : ReportDocument → String)
    (value : FinalRepairReportInput)
    (built : buildFinalReportInput env settings task comparison = .input value)
    (noCollision : ∀ read, env.reportFromDict value.toDict = .ok read →
      digest read.toDict = digest value.toDict → read.toDict = value.toDict) :
    (∃ read, env.reportFromDict value.toDict = .ok read ∧
        digest read.toDict = digest value.toDict) ↔
      ∃ manifest, task.manifest = some manifest ∧ StoredAsBuilt env task manifest comparison := by
  obtain ⟨manifest, diffs, stored, parsed, fields⟩ := buildFinalReportInput_eq_input built
  have reread : Reread env value.toReportFields ↔ StoredAsBuilt env task manifest comparison := by
    rw [fields]
    exact reread_built_iff parsed
  rw [← reportFromDict_toDict_iff] at reread
  constructor
  · rintro ⟨read, decoded, same⟩
    have equal := FinalRepairReportInput.toDict_inj.mp (noCollision read decoded same)
    rw [equal] at decoded
    exact ⟨manifest, stored, reread.mp decoded⟩
  · rintro ⟨other, found, kept⟩
    rw [stored] at found
    cases found
    exact ⟨value, reread.mpr kept, rfl⟩

theorem buildFinalReportInput_of
    {settings : ReportSettings}
    {task : ReportedTask}
    {comparison : RepositoryCompare}
    {manifest : RepairCommitManifest}
    (stored : task.manifest = some manifest)
    (pushed : manifest.entries ≠ [])
    (valid : manifest.validateStatic = .ok ())
    (own : manifest.repairTaskId = task.taskId)
    (project : manifest.projectId = (task.mr.map (·.projectId)).getD "")
    (head : manifest.finalRepairSha = task.repairState.latestPipelineSha)
    (last : comparison.lastCommit = "")
    (parsed : parseGitlabCompareDiffs env settings comparison.diffs = .ok diffs)
    (shown : diffs ≠ [])
    (fields : value.toReportFields = reportFields task manifest diffs) :
    buildFinalReportInput env settings task comparison = .input value := by
  have made := FinalRepairReportInput.make_eq_ok.mpr fields
  simp [buildFinalReportInput, stored, pushed, valid, own, project, head, last, parsed, shown,
    made]

theorem parseGitlabCompareDiffs_single
    {settings : ReportSettings}
    {value : CompareDiff}
    {diff : FinalRepairDiff}
    (room : 0 < settings.maxFiles)
    (read : env.readFinalDiff (value.bounded (settings.patchLimits 1)) = .ok diff) :
    parseGitlabCompareDiffs env settings [value] = .ok [diff] := by
  have few : ¬settings.maxFiles < 1 := Nat.not_lt_of_le room
  simp [parseGitlabCompareDiffs, few, read, bind, Except.bind, pure, Except.pure]

namespace DigestSample

open Sample

/-- Texts without secrets. -/
def plain : RepairTextEnv where
  redactValues := id
  redactSecrets := id

def settings : ReportSettings where
  maxFiles := 40
  maxHunks := 20
  maxLines := 400
  maxChars := 500
  maxTotalChars := 48000
  maxCharsPositive := Nat.zero_lt_succ 499

def baseSha : String := "0000000000000000000000000000000000000000"

def finalSha : String := "1111111111111111111111111111111111111111"

def sourceSha : String := "2222222222222222222222222222222222222222"

/-- The repair pushed one commit. -/
def manifest : RepairCommitManifest where
  repairTaskId := repair
  projectId := "group/project"
  mrIid := 7
  sourceBranch := "fix"
  baseCommitSha := baseSha
  baseTreeSha := baseSha
  authorizedActorId := "author"
  entries := [⟨1, finalSha, baseSha, baseSha, "effect", "marker", "today"⟩]
  frozen := true
  frozenAt := "today"

/-- A repair with these failed jobs and reasons. -/
def task (jobs : List String) (explanations : List FailureExplanation) : ReportedTask where
  taskId := repair
  mr := some mr
  prUrl := "https://gitlab/mr/7"
  sourcePipelineId := 11
  sourcePipelineSha := sourceSha
  binding := none
  manifest := some manifest
  repairState :=
    { latestPipelineId := 12
      latestPipelineSha := finalSha
      finalPipelineStatus := "success"
      finalCoverage := none
      finalCoverageSource := ""
      finalCoverageStatus := ""
      selectedCategories := ["build"]
      failedJobNames := jobs
      failureExplanations := explanations
      sourceFailureExplanations := []
      repairActions := [] }

/-- The commit adds a line to one file. -/
def comparison : RepositoryCompare where
  diffs := [{ newPath := "a.cpp", oldPath := "a.cpp", diff := "@@ -1 +1,2 @@\n+x" }]
  lastCommit := ""

/-- The file as it is stored. -/
def diff : FinalRepairDiff where
  path := "a.cpp"
  changeType := "modified"
  additions := 1
  deletions := 0
  patch := "@@ -1 +1,2 @@\n+x"

theorem parsed : parseGitlabCompareDiffs plain settings comparison.diffs = .ok [diff] :=
  parseGitlabCompareDiffs_single (by decide) (by decide)

theorem no_problem (jobs : List String) (explanations : List FailureExplanation) :
    (reportFields (task jobs explanations) manifest [diff]).problem = none := by
  have checked : (reportFields (task [] []) manifest [diff]).problem = none := by
    decide
  exact checked

/-- The input of the repair. -/
def input (jobs : List String) (explanations : List FailureExplanation) :
    FinalRepairReportInput where
  toReportFields := reportFields (task jobs explanations) manifest [diff]
  accepted := no_problem jobs explanations

theorem built (jobs : List String) (explanations : List FailureExplanation) :
    buildFinalReportInput plain settings (task jobs explanations) comparison =
      .input (input jobs explanations) :=
  buildFinalReportInput_of rfl (List.cons_ne_nil _ _) (by decide) rfl rfl rfl rfl parsed
    (List.cons_ne_nil _ _) rfl

/-- One failed job with a reason. -/
def explained : List FailureExplanation :=
  [{ jobName := "build", confirmedReason := "missing header" }]

/-- The SHA-256 of the input's canonical text. -/
def digest (document : ReportDocument) : String :=
  if document = (input [] explained).toDict then
    "68bf42c1d622330e8846126425bcb60e557c6a96256b839a3645b37d2e26fdde"
  else ""

theorem storedAsBuilt : StoredAsBuilt plain (task [] explained) manifest comparison := by
  constructor
  case selectedCategories => exact ⟨by decide, by decide, by decide⟩
  case failedJobs => exact ⟨by decide, by decide, by decide⟩
  case paths =>
    intro diff member path safe
    obtain rfl := List.mem_singleton.mp member
    have own : plain.safePath "a.cpp" = some "a.cpp" := by
      decide
    have same : some "a.cpp" = some path := own.symm.trans safe
    cases same
    exact own
  all_goals decide +kernel

/-- Forty-one failed jobs. -/
def jobs : List String :=
  (List.range 41).map fun index => "job-" ++ toString index

end DigestSample

open DigestSample in
theorem small_input_keeps_digest :
    ∃ read, plain.reportFromDict (input [] explained).toDict = .ok read ∧
      digest read.toDict = digest (input [] explained).toDict := by
  apply (report_digest_survives_iff plain settings (task [] explained) comparison digest
    (input [] explained) (built [] explained) ?_).mpr ⟨manifest, rfl, storedAsBuilt⟩
  intro read _ same
  by_contra different
  have own : digest (input [] explained).toDict ≠ "" := by
    rw [digest, if_pos rfl]
    decide
  rw [← same, digest, if_neg different] at own
  exact own rfl

open DigestSample in
/-- Of forty-one failed jobs one is gone when the input is read, and its digest with it. -/
theorem forty_one_jobs_lose_digest :
    buildFinalReportInput plain settings (task jobs []) comparison = .input (input jobs []) ∧
      ∀ read, plain.reportFromDict (input jobs []).toDict = .ok read →
        read.failedJobs.length < (input jobs []).failedJobs.length ∧
        read.toDict ≠ (input jobs []).toDict ∧
        ∀ digest : ReportDocument → String,
          (digest read.toDict = digest (input jobs []).toDict →
            read.toDict = (input jobs []).toDict) →
          digest read.toDict ≠ digest (input jobs []).toDict := by
  refine ⟨built jobs [], ?_⟩
  intro read decoded
  have kept : read.failedJobs.length ≤ 40 := by
    rw [failedJobs_of_reportFromDict decoded]
    exact length_gather_le (by decide) _
  have all : (input jobs []).failedJobs.length = 41 := by
    have copied : (input jobs []).failedJobs = jobs := rfl
    rw [copied, jobs, List.length_map, List.length_range]
  have fewer : read.failedJobs.length < (input jobs []).failedJobs.length := by
    omega
  have apart : read.toDict ≠ (input jobs []).toDict := by
    intro same
    rw [FinalRepairReportInput.toDict_inj.mp same] at fewer
    exact Nat.lt_irrefl _ fewer
  exact ⟨fewer, apart, fun digest noCollision same => apart (noCollision same)⟩

end MrAgent
