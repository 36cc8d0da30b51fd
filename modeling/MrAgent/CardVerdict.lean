import MrAgent.OutcomeLaws

namespace MrAgent

/-!
# The items of the card and the verdict

After a repair the card shows one item for each category. The items are made
from the failed jobs once more, by `reconcile_batch_repair_items`, which skips
jobs that may not be repaired automatically, takes a job under its unstripped
name and does not ask whether the validation is reliable.
-/

/-! ## Items -/

/-- `FailureExplanation`. -/
structure FailureExplanation where
  jobName : String
  jobUrl : String := ""
  confirmedReason : String := ""
  possibleReason : String := ""
  suggestedAction : String := ""
  pipelineId : Nat := 0
  jobId : Nat := 0
  traceLine : Nat := 0
  confidence : String := "unknown"
  observedAt : String := ""
deriving DecidableEq

/-- `RepairItem` with the fields that only the card reads. -/
structure BatchItem extends RepairItem where
  displayName : String
  buttonType : String
  failedJobNames : List String := []
  failureExplanations : List FailureExplanation := []
deriving DecidableEq

/-- `_CATEGORY_DEFAULTS`: the display name, the command, the label and the button. -/
def categoryMetadata : RepairCategory → String × String × String × String
  | .pipeline => ("流水线", "/repair-pipeline", "修复流水线", "primary")
  | .format => ("Format", "/fix-format", "修复格式", "primary")
  | .clang => ("Clang", "/triage", "修复静态分析问题", "danger")
  | .build => ("Build", "/triage", "修复编译错误", "danger")
  | .unknown => ("Unknown", "/triage", "自动诊断修复", "danger")

/-- The pipeline that a card is reconciled with. -/
structure CardPipeline where
  pipelineId : Nat
  pipelineSha : String
  resultPipelineId : Nat
  resultPipelineSha : String
deriving DecidableEq

/-- `repair_items_for_categories` on one category. -/
def repairItemForCategory (category : RepairCategory) (pipeline : CardPipeline) : BatchItem where
  category := category
  command := (categoryMetadata category).2.1
  label := (categoryMetadata category).2.2.1
  status := .pending
  pipelineId := pipeline.pipelineId
  pipelineSha := pipeline.pipelineSha
  displayName := (categoryMetadata category).1
  buttonType := (categoryMetadata category).2.2.2

namespace CategoryEnv

variable (env : CategoryEnv) (jobs : List ValidationJob) (category : RepairCategory)

/-- The jobs of a category that are offered for repair. -/
def actionJobs : List ValidationJob :=
  (jobs.filter fun job =>
    !(env.categorizeFailedJob job.name = .format && !job.autoRepairEligible)).filter
      fun job => env.categorizeFailedJob job.name = category

/-- `repair_items_for_failed_jobs`: the item of one category. -/
def itemForFailedJobs (pipeline : CardPipeline) : Option BatchItem :=
  if env.actionJobs jobs category = [] then none
  else some
    { repairItemForCategory category pipeline with
      failedJobNames := ((env.actionJobs jobs category).map (·.name)).filter (· ≠ "") }

end CategoryEnv

/-- The arguments of `reconcile_batch_repair_items`. -/
structure ReconcileInput where
  previousItems : List BatchItem
  selectedCategories : List RepairCategory
  effectiveCategories : List RepairCategory
  failedJobs : List ValidationJob
  pipeline : CardPipeline
  error : String
  failureExplanations : List FailureExplanation
  categoryResults : List CategoryRepairResult

namespace ReconcileInput

variable (env : CategoryEnv) (input : ReconcileInput) (category : RepairCategory)

/-- `effective or selected`. -/
def effective : List RepairCategory :=
  if input.effectiveCategories = [] then input.selectedCategories else input.effectiveCategories

/-- `previous.get`: the last item of a category. -/
def previous : Option BatchItem :=
  (input.previousItems.filter (·.category ≠ .pipeline)).reverse.find? (·.category = category)

/-- `latest_items.get`. -/
def latest : Option BatchItem :=
  env.itemForFailedJobs input.failedJobs category input.pipeline

/-- `results_by_category.get`: the last result of a category. -/
def result : Option CategoryRepairResult :=
  input.categoryResults.reverse.find? (·.category = category)

/-- The category is in `categories`. -/
def shows : Bool :=
  (input.previous category).isSome || (input.latest env category).isSome ||
    category ∈ input.selectedCategories || category ∈ input.effective

/-- The item that is updated. -/
def base : BatchItem :=
  ((input.previous category).or (input.latest env category)).getD
    (repairItemForCategory category input.pipeline)

/-- The recorded explanations of some jobs; the last one of a job counts. -/
def explanations (names : List String) : List FailureExplanation :=
  names.filterMap fun name => input.failureExplanations.reverse.find? (·.jobName = name)

/-- The verdict calls the category blocked. -/
def isBlocked : Bool :=
  (input.result category).any (·.outcome = .blocked)

def status : RepairItemStatus :=
  if input.isBlocked category then .blocked
  else if (input.latest env category).isSome then
    if category ∈ input.effective then .failed else .pending
  else if category ∈ input.effective then .succeeded
  else .resolved

def statusMarkdown : String :=
  if input.isBlocked category then "当前类别被外部依赖阻塞"
  else if (input.latest env category).isSome then
    if category ∈ input.effective then
      if input.error ≠ "" then input.error else "流水线仍有该类失败任务"
    else ""
  else if category ∈ input.effective then "最新流水线已通过"
  else "已随本次修复通过"

/-- The failed jobs that the item names. -/
def itemJobNames : List String :=
  ((input.latest env category).map (·.failedJobNames)).getD (input.base env category).failedJobNames

/-- The item of one category. -/
def item : BatchItem :=
  { input.base env category with
    status := input.status env category
    pipelineId := input.pipeline.pipelineId
    pipelineSha := input.pipeline.pipelineSha
    resultPipelineId := input.pipeline.resultPipelineId
    resultPipelineSha := input.pipeline.resultPipelineSha
    statusMarkdown := input.statusMarkdown env category
    failedJobNames := input.itemJobNames env category
    failureExplanations :=
      if input.isBlocked category || (input.latest env category).isSome then
        input.explanations (input.itemJobNames env category)
      else [] }

end ReconcileInput

/-- `reconcile_batch_repair_items`. -/
def reconcileBatchRepairItems (env : CategoryEnv) (input : ReconcileInput) : List BatchItem :=
  (categoryOrder.filter (input.shows env)).map (input.item env)

/-- The call of `_finish_pipeline_repair`: the same jobs and the results of the verdict. -/
def OutcomeInput.reconcile
    (env : CategoryEnv)
    (input : OutcomeInput)
    (previousItems : List BatchItem)
    (pipeline : CardPipeline)
    (error : String)
    (failureExplanations : List FailureExplanation) : ReconcileInput where
  previousItems := previousItems
  selectedCategories := input.selectedCategories
  effectiveCategories := input.effectiveCategories
  failedJobs := input.validationFailedJobs
  pipeline := pipeline
  error := error
  failureExplanations := failureExplanations
  categoryResults := (evaluateRepairOutcome env input).categoryResults

/-! ## What the card shows -/

/-- The card names a failed job for a category. -/
def ValidationJob.Shown
    (job : ValidationJob)
    (env : CategoryEnv)
    (category : RepairCategory) : Prop :=
  env.categorizeFailedJob job.name = category ∧
    (category = .format → job.autoRepairEligible = true)

namespace CategoryEnv

variable {env : CategoryEnv} {jobs : List ValidationJob} {category : RepairCategory}

theorem mem_actionJobs
    {job : ValidationJob} :
    job ∈ env.actionJobs jobs category ↔ job ∈ jobs ∧ job.Shown env category := by
  simp only [actionJobs, List.mem_filter, ValidationJob.Shown, decide_eq_true_eq,
    Bool.not_eq_true', Bool.and_eq_false_imp, Bool.not_eq_false']
  constructor
  · rintro ⟨⟨member, eligible⟩, rfl⟩
    exact ⟨member, rfl, eligible⟩
  · rintro ⟨member, rfl, eligible⟩
    exact ⟨⟨member, eligible⟩, rfl⟩

theorem itemForFailedJobs_eq_none
    {pipeline : CardPipeline} :
    env.itemForFailedJobs jobs category pipeline = none ↔
      ∀ job ∈ jobs, ¬ job.Shown env category := by
  have empty : env.itemForFailedJobs jobs category pipeline = none ↔
      env.actionJobs jobs category = [] := by
    unfold itemForFailedJobs
    split <;> rename_i jobs <;> simp [jobs]
  rw [empty, List.eq_nil_iff_forall_not_mem]
  exact ⟨fun none job member shown => none job (mem_actionJobs.mpr ⟨member, shown⟩),
    fun none job member => none job (mem_actionJobs.mp member).1 (mem_actionJobs.mp member).2⟩

theorem itemForFailedJobs_category
    {pipeline : CardPipeline}
    {item : BatchItem}
    (made : env.itemForFailedJobs jobs category pipeline = some item) :
    item.category = category := by
  unfold itemForFailedJobs at made
  split at made
  · cases made
  · obtain rfl := Option.some.inj made
    rfl

end CategoryEnv

namespace ReconcileInput

variable {env : CategoryEnv} {input : ReconcileInput} {category : RepairCategory}

theorem base_category : (input.base env category).category = category := by
  unfold base
  cases previous : input.previous category with
  | some item =>
      simpa using List.find?_some previous
  | none =>
      cases latest : input.latest env category with
      | some item =>
          exact CategoryEnv.itemForFailedJobs_category latest
      | none =>
          rfl

theorem item_category : (input.item env category).category = category :=
  @base_category env input category

theorem shows_of_effective
    (effective : category ∈ input.selectedCategories ∨ category ∈ input.effective) :
    input.shows env category = true := by
  simp only [shows, Bool.or_eq_true, decide_eq_true_eq]
  rcases effective with selected | effective
  · exact Or.inl (Or.inr selected)
  · exact Or.inr effective

theorem eq_item
    {item : BatchItem}
    (member : item ∈ reconcileBatchRepairItems env input) :
    item = input.item env item.category := by
  obtain ⟨category, -, rfl⟩ := List.mem_map.mp member
  rw [item_category]

theorem item_mem
    (ordered : category ∈ categoryOrder)
    (handled : category ∈ input.selectedCategories ∨ category ∈ input.effective) :
    input.item env category ∈ reconcileBatchRepairItems env input :=
  List.mem_map_of_mem (List.mem_filter.mpr ⟨ordered, shows_of_effective handled⟩)

theorem status_eq_succeeded :
    input.status env category = .succeeded ↔
      input.isBlocked category = false ∧ input.latest env category = none ∧
        category ∈ input.effective := by
  unfold status
  split <;> rename_i blocked
  · simp [blocked]
  · split <;> rename_i latest
    · split <;> simp [Option.isSome_iff_ne_none.mp latest]
    · split <;> rename_i effective <;> simp_all

end ReconcileInput

namespace OutcomeInput

variable {env : CategoryEnv} {input : OutcomeInput} {category : RepairCategory}

theorem mem_categoryResults
    {result : CategoryRepairResult}
    (member : result ∈ input.categoryResults env) :
    result = input.categoryResult env result.category := by
  obtain ⟨category, -, rfl⟩ := List.mem_map.mp member
  rfl

theorem categoryResult_mem
    (ordered : category ∈ categoryOrder)
    (handled : category ∈ input.selectedCategories ∨ category ∈ input.effective) :
    input.categoryResult env category ∈ input.categoryResults env := by
  refine List.mem_map_of_mem (List.mem_filter.mpr ⟨ordered, ?_⟩)
  simp only [reports, Bool.or_eq_true, decide_eq_true_eq]
  rcases handled with selected | effective
  · exact Or.inl (Or.inr selected)
  · exact Or.inr effective

theorem outcome_of_handled
    (handled : category ∈ input.selectedCategories ∨ category ∈ input.effective) :
    (input.categoryResult env category).outcome = input.handledOutcome env category := by
  unfold categoryResult selection
  dsimp only
  split_ifs with selected effective
  · rfl
  · rfl
  · exact absurd handled (not_or.mpr ⟨selected, effective⟩)

/-- A failed job falls into the category. -/
def Fails (env : CategoryEnv) (input : OutcomeInput) (category : RepairCategory) : Prop :=
  ∃ job ∈ input.validationFailedJobs, job.FallsIn env category

/-- The card names a failed job of the category. -/
def ShowsFailure
    (env : CategoryEnv)
    (input : OutcomeInput)
    (category : RepairCategory) : Prop :=
  ∃ job ∈ input.validationFailedJobs, job.Shown env category

/-- Every failed job of the category is blocked. -/
def AllBlocked (env : CategoryEnv) (input : OutcomeInput) (category : RepairCategory) : Prop :=
  ∀ job ∈ input.validationFailedJobs, job.FallsIn env category →
    stripped job.name ∈ input.blockedNames

theorem reported_succeeded
    (ordered : category ∈ categoryOrder)
    (handled : category ∈ input.selectedCategories ∨ category ∈ input.effective) :
    (∃ result ∈ input.categoryResults env,
        result.category = category ∧ result.outcome = .succeeded) ↔
      input.validationReliable = true ∧ ¬ input.Fails env category := by
  have clear : ¬ input.Fails env category ↔ input.validationGroup env category = [] := by
    rw [validationGroup_eq_nil, Fails]
    push Not
    rfl
  rw [clear, ← handledOutcome_succeeded, ← outcome_of_handled handled]
  constructor
  · rintro ⟨result, member, rfl, succeeded⟩
    rw [← mem_categoryResults member]
    exact succeeded
  · intro succeeded
    exact ⟨_, categoryResult_mem ordered handled, rfl, succeeded⟩

theorem handledOutcome_blocked :
    input.handledOutcome env category = .blocked ↔
      input.Fails env category ∧ input.AllBlocked env category := by
  have allBlocked : input.nonblockedGroup env category = [] ↔ input.AllBlocked env category := by
    simp only [nonblockedGroup, List.filter_eq_nil_iff, decide_eq_true_eq, not_not]
    constructor
    · intro blocked job failed falls
      exact blocked _ (mem_validationGroup.mpr ⟨job, failed, rfl, falls⟩)
    · intro blocked name member
      obtain ⟨job, failed, rfl, falls⟩ := mem_validationGroup.mp member
      exact blocked job failed falls
  have some : input.Fails env category ↔ input.validationGroup env category ≠ [] := by
    rw [Ne, validationGroup_eq_nil]
    push Not
    rfl
  rw [← allBlocked, some, ne_eq, ← groups_eq_nil]
  unfold handledOutcome
  split_ifs <;> simp_all

theorem reconcile_isBlocked
    {previousItems : List BatchItem}
    {pipeline : CardPipeline}
    {error : String}
    {explanations : List FailureExplanation}
    (ordered : category ∈ categoryOrder)
    (handled : category ∈ input.selectedCategories ∨ category ∈ input.effective) :
    (input.reconcile env previousItems pipeline error explanations).isBlocked category = true ↔
      input.handledOutcome env category = .blocked := by
  have found : (input.reconcile env previousItems pipeline error explanations).result category =
      some (input.categoryResult env category) := by
    cases found : (input.reconcile env previousItems pipeline error explanations).result category
      with
    | none =>
        have missing := List.find?_eq_none.mp found (input.categoryResult env category)
          (List.mem_reverse.mpr (categoryResult_mem ordered handled))
        exact absurd (decide_eq_true rfl) missing
    | some result =>
        have named : result.category = category := by simpa using List.find?_some found
        have member := List.mem_reverse.mp (List.mem_of_find?_eq_some found)
        rw [← named, ← mem_categoryResults member]
  simp [ReconcileInput.isBlocked, found, outcome_of_handled handled]

/-- With a failed job the card has to show one, unless all of them are blocked; without one the
validation has to be reliable just when the card shows none. -/
def CardAgrees
    (env : CategoryEnv)
    (input : OutcomeInput)
    (category : RepairCategory) : Prop :=
  (input.Fails env category →
    category ∉ input.effective ∨ input.ShowsFailure env category ∨
      input.AllBlocked env category) ∧
  (¬ input.Fails env category →
    (input.validationReliable = true ↔
      category ∈ input.effective ∧ ¬ input.ShowsFailure env category))

theorem agreement_cases
    {fails allBlocked shown effective reliable : Prop} :
    ((¬ (fails ∧ allBlocked) ∧ ¬ shown ∧ effective) ↔ (reliable ∧ ¬ fails)) ↔
      (fails → ¬ effective ∨ shown ∨ allBlocked) ∧
        (¬ fails → (reliable ↔ effective ∧ ¬ shown)) := by
  by_cases falls : fails
  · simp only [falls, not_true_eq_false, and_false, iff_false, true_and, true_imp_iff,
      false_imp_iff, and_true]
    tauto
  · simp only [falls, not_false_eq_true, and_true, false_and, true_and, true_imp_iff,
      false_imp_iff]
    tauto

end OutcomeInput

/--
The item of a selected or effective category is shown as succeeded just when
the verdict reports it as succeeded, exactly where `CardAgrees` holds.
-/
theorem card_agrees_with_verdict_iff
    (env : CategoryEnv)
    (input : OutcomeInput)
    (previousItems : List BatchItem)
    (pipeline : CardPipeline)
    (error : String)
    (explanations : List FailureExplanation)
    {category : RepairCategory}
    (ordered : category ∈ categoryOrder)
    (handled : category ∈ input.selectedCategories ∨ category ∈ input.effective) :
    (∀ item ∈ reconcileBatchRepairItems env
        (input.reconcile env previousItems pipeline error explanations),
      item.category = category →
        (item.status = .succeeded ↔ ∃ result ∈ (evaluateRepairOutcome env input).categoryResults,
          result.category = category ∧ result.outcome = .succeeded)) ↔
      input.CardAgrees env category := by
  have shown : ((input.reconcile env previousItems pipeline error explanations).item env
      category).status = .succeeded ↔
        ¬ (input.Fails env category ∧ input.AllBlocked env category) ∧
          ¬ input.ShowsFailure env category ∧ category ∈ input.effective := by
    have none : ¬ input.ShowsFailure env category ↔
        env.itemForFailedJobs input.validationFailedJobs category pipeline = none := by
      rw [CategoryEnv.itemForFailedJobs_eq_none, OutcomeInput.ShowsFailure]
      push Not
      rfl
    rw [← OutcomeInput.handledOutcome_blocked,
      ← OutcomeInput.reconcile_isBlocked ordered handled, Bool.not_eq_true, none]
    exact ReconcileInput.status_eq_succeeded
  have only : (∀ item ∈ reconcileBatchRepairItems env
        (input.reconcile env previousItems pipeline error explanations),
      item.category = category →
        (item.status = .succeeded ↔ ∃ result ∈ (evaluateRepairOutcome env input).categoryResults,
          result.category = category ∧ result.outcome = .succeeded)) ↔
      (((input.reconcile env previousItems pipeline error explanations).item env
        category).status = .succeeded ↔
          input.validationReliable = true ∧ ¬ input.Fails env category) := by
    rw [← OutcomeInput.reported_succeeded ordered handled]
    constructor
    · intro each
      exact each _ (ReconcileInput.item_mem ordered handled) ReconcileInput.item_category
    · rintro agrees item member rfl
      have same := ReconcileInput.eq_item member
      rw [← same] at agrees
      exact agrees
  rw [only, shown]
  exact OutcomeInput.agreement_cases

namespace OutcomeSample

def pipeline : CardPipeline := ⟨7, "c0ffee", 7, "c0ffee"⟩

/-- The pipeline could not be read after the repair. -/
def unread : OutcomeInput := { repair with validationReliable := false }

/-- The format check still fails, on files that may not be changed automatically. -/
def excluded : OutcomeInput := repair.withFailures [⟨"code_format_check", false⟩]

/-- The items of the card, as far as they show a verdict. -/
def cardOf (input : OutcomeInput) : List (RepairCategory × RepairItemStatus) :=
  (reconcileBatchRepairItems env (input.reconcile env [] pipeline "" [])).map fun item =>
    (item.category, item.status)

/-- The outcomes of the categories. -/
def outcomesOf (input : OutcomeInput) : List (RepairCategory × CategoryRepairOutcome) :=
  (evaluateRepairOutcome env input).categoryResults.map fun result =>
    (result.category, result.outcome)

end OutcomeSample

open OutcomeSample in
theorem passed_format_agrees :
    reconcileBatchRepairItems env (repair.reconcile env [] pipeline "" []) ≠ [] ∧
    ∀ item ∈ reconcileBatchRepairItems env (repair.reconcile env [] pipeline "" []),
      item.category = .format →
        (item.status = .succeeded ↔ ∃ result ∈ (evaluateRepairOutcome env repair).categoryResults,
          result.category = .format ∧ result.outcome = .succeeded) :=
  ⟨by decide +kernel, (card_agrees_with_verdict_iff env repair [] pipeline "" []
    (by decide) (Or.inl (by decide))).mpr
      ⟨by simp [OutcomeInput.Fails, repair],
        by simp [OutcomeInput.ShowsFailure, OutcomeInput.effective, repair]⟩⟩

open OutcomeSample in
/-- The card shows a category as succeeded that is unverified, and one that fails. -/
theorem unverified_category_shown_as_succeeded :
    cardOf unread = [(.format, .succeeded)] ∧ outcomesOf unread = [(.format, .unverified)] ∧
      cardOf excluded = [(.format, .succeeded)] ∧ outcomesOf excluded = [(.format, .failed)] := by
  decide +kernel

end MrAgent
