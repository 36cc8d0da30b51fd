import MrAgent.RepairOutcome
import MrAgent.RollbackAdmission
import MrAgent.TextCut

namespace MrAgent

/-!
# What a verdict says

The verdict is a function of the groups of names. A group only grows when a
failed job is added, so each category, and with it the verdict, only gets
worse; a verdict with a verified benefit keeps the commits.
-/

/-! ## Groups -/

theorem stripped_stripped (value : String) : stripped (stripped value) = stripped value := by
  unfold stripped
  rw [String.toList_ofList, strip_strip]

/-- A failed job with a name belongs to one category. -/
def ValidationJob.FallsIn
    (job : ValidationJob)
    (env : CategoryEnv)
    (category : RepairCategory) : Prop :=
  stripped job.name ≠ "" ∧ env.categorizeFailedJob (stripped job.name) = category

namespace CategoryEnv

variable (env : CategoryEnv)

theorem categorizeFailedJob_mem_order (name : String) :
    env.categorizeFailedJob name ∈ categoryOrder := by
  unfold categorizeFailedJob
  cases found : categoryOrder.dropLast.find? fun category =>
      (env.keywords category).any (containsText (env.lower name)) with
  | none =>
      exact List.mem_cons_of_mem _ (by decide)
  | some category =>
      exact List.dropLast_subset _ (List.mem_of_find?_eq_some found)

theorem mem_groupNames
    {names : List String}
    {category : RepairCategory}
    {name : String} :
    name ∈ env.groupNames names category ↔
      name ∈ names.map stripped ∧ name ≠ "" ∧ env.categorizeFailedJob name = category := by
  simp only [groupNames, List.mem_filter, decide_eq_true_eq, and_assoc]

end CategoryEnv

namespace OutcomeInput

variable {env : CategoryEnv} {input : OutcomeInput} {category : RepairCategory}

variable {name : String}

theorem mem_validationGroup :
    name ∈ input.validationGroup env category ↔
      ∃ job ∈ input.validationFailedJobs, stripped job.name = name ∧ job.FallsIn env category := by
  rw [validationGroup, CategoryEnv.mem_groupNames]
  constructor
  · rintro ⟨member, named, categorized⟩
    obtain ⟨once, stored, rfl⟩ := List.mem_map.mp member
    obtain ⟨job, failed, rfl⟩ := List.mem_map.mp (List.mem_filter.mp stored).1
    rw [stripped_stripped] at named categorized ⊢
    exact ⟨job, failed, rfl, named, categorized⟩
  · rintro ⟨job, member, rfl, named, categorized⟩
    refine ⟨List.mem_map.mpr ⟨stripped job.name, ?_, stripped_stripped _⟩, named, categorized⟩
    exact List.mem_filter.mpr ⟨List.mem_map.mpr ⟨job, member, rfl⟩, decide_eq_true named⟩

theorem mem_sourceGroup :
    name ∈ input.sourceGroup env category ↔
      name ∈ input.sourceFailedJobNames.map stripped ∧ name ≠ "" ∧
        env.categorizeFailedJob name = category :=
  env.mem_groupNames

theorem validationGroup_eq_nil :
    input.validationGroup env category = [] ↔
      ∀ job ∈ input.validationFailedJobs, ¬ job.FallsIn env category := by
  rw [List.eq_nil_iff_forall_not_mem]
  constructor
  · intro empty job member falls
    exact empty (stripped job.name) (mem_validationGroup.mpr ⟨job, member, rfl, falls⟩)
  · intro none name member
    obtain ⟨job, member, -, falls⟩ := mem_validationGroup.mp member
    exact none job member falls

theorem groups_eq_nil :
    input.nonblockedGroup env category = [] ∧ input.blockedGroup env category = [] ↔
      input.validationGroup env category = [] := by
  simp only [nonblockedGroup, blockedGroup, List.filter_eq_nil_iff, decide_eq_true_eq, not_not]
  constructor
  · rintro ⟨allBlocked, noneBlocked⟩
    exact List.eq_nil_iff_forall_not_mem.mpr fun name member =>
      noneBlocked name member (allBlocked name member)
  · intro empty
    simp [empty]

/-! ## Results -/

theorem handledOutcome_succeeded :
    input.handledOutcome env category = .succeeded ↔
      input.validationReliable = true ∧ input.validationGroup env category = [] := by
  rw [← groups_eq_nil]
  unfold handledOutcome
  split <;> rename_i nonblocked
  · simp [nonblocked]
  · split <;> rename_i blocked
    · simp [blocked]
    · split <;> rename_i reliable <;> simp_all

theorem selection_eq_selected :
    input.selection category = .selected ↔ category ∈ input.selectedCategories := by
  unfold selection
  split <;> rename_i member
  · simp [member]
  · split <;> simp [member]

theorem selectedResults_eq :
    input.selectedResults env =
      (categoryOrder.filter (· ∈ input.selectedCategories)).map (input.categoryResult env) := by
  unfold selectedResults categoryResults
  rw [List.filter_map, List.filter_filter]
  congr 1
  apply List.filter_congr
  intro category _
  simp only [Function.comp_def, categoryResult, selection_eq_selected, reports]
  by_cases selected : category ∈ input.selectedCategories <;> simp [selected]

variable {result : CategoryRepairResult}

theorem mem_selectedResults :
    result ∈ input.selectedResults env ↔
      ∃ category ∈ categoryOrder, category ∈ input.selectedCategories ∧
        input.categoryResult env category = result := by
  rw [selectedResults_eq]
  simp [List.mem_map, List.mem_filter, and_assoc]

theorem categoryResult_outcome
    (selected : category ∈ input.selectedCategories) :
    (input.categoryResult env category).outcome = input.handledOutcome env category := by
  simp [categoryResult, selection_eq_selected.mpr selected]

theorem mem_verifiedRepairedNames
    (reliable : input.validationReliable = true) :
    name ∈ input.verifiedRepairedNames env category ↔
      name ∈ input.sourceGroup env category ∧ name ∉ input.validationGroup env category := by
  simp [verifiedRepairedNames, reliable]

theorem verifiedSelectedSuccessCount_selected :
    verifiedSelectedSuccessCount (input.categoryResults env) =
      verifiedSelectedSuccessCount (input.selectedResults env) := by
  unfold verifiedSelectedSuccessCount selectedResults
  rw [List.countP_filter]
  apply List.countP_congr
  intro result _
  simp only [CategoryRepairResult.verifiedBenefit, Bool.and_eq_true]
  exact ⟨fun benefit => ⟨benefit, benefit.1⟩, fun both => both.1⟩

/-! ## Introduced failures -/

theorem mem_introducedNames :
    name ∈ input.introducedNames env ↔
      name ∈ input.validationGroup env (env.categorizeFailedJob name) ∧
        input.sourceGroup env (env.categorizeFailedJob name) = [] ∧
          name ∉ input.blockedNames := by
  simp only [introducedNames, List.mem_flatMap, List.mem_filter, nonblockedGroup,
    introducedCategories, decide_eq_true_eq, Bool.and_eq_true, List.any_eq_true]
  constructor
  · rintro ⟨category, ⟨-, -, ⟨-, unsourced⟩, -⟩, member, nonblocked⟩
    obtain ⟨-, -, rfl⟩ := env.mem_groupNames.mp member
    exact ⟨member, unsourced, nonblocked⟩
  · rintro ⟨member, unsourced, nonblocked⟩
    have ordered := env.categorizeFailedJob_mem_order name
    exact ⟨_, ⟨ordered, ordered, ⟨List.ne_nil_of_mem member, unsourced⟩,
      name, member, nonblocked⟩, member, nonblocked⟩

/-- A failure outside the blocked jobs in a category that had no failure before the repair. -/
def Introduces
    (env : CategoryEnv)
    (input : OutcomeInput)
    (job : ValidationJob) : Prop :=
  job.FallsIn env (env.categorizeFailedJob (stripped job.name)) ∧
    stripped job.name ∉ input.blockedNames ∧
      ∀ name ∈ input.sourceFailedJobNames, stripped name ≠ "" →
        env.categorizeFailedJob (stripped name) ≠ env.categorizeFailedJob (stripped job.name)

theorem sourceGroup_eq_nil :
    input.sourceGroup env category = [] ↔
      ∀ name ∈ input.sourceFailedJobNames, stripped name ≠ "" →
        env.categorizeFailedJob (stripped name) ≠ category := by
  rw [List.eq_nil_iff_forall_not_mem]
  constructor
  · intro empty name member named categorized
    exact empty (stripped name)
      (mem_sourceGroup.mpr ⟨List.mem_map.mpr ⟨name, member, rfl⟩, named, categorized⟩)
  · intro none name member
    obtain ⟨raw, named, categorized⟩ := mem_sourceGroup.mp member
    obtain ⟨name, source, rfl⟩ := List.mem_map.mp raw
    exact none name source named categorized

theorem introducedNames_eq_nil :
    input.introducedNames env = [] ↔
      ∀ job ∈ input.validationFailedJobs, ¬ input.Introduces env job := by
  rw [List.eq_nil_iff_forall_not_mem]
  constructor
  · rintro empty job member ⟨falls, nonblocked, unsourced⟩
    exact empty (stripped job.name) (mem_introducedNames.mpr
      ⟨mem_validationGroup.mpr ⟨job, member, rfl, falls⟩, sourceGroup_eq_nil.mpr unsourced,
        nonblocked⟩)
  · intro none name member
    obtain ⟨grouped, unsourced, nonblocked⟩ := mem_introducedNames.mp member
    obtain ⟨job, failed, rfl, falls⟩ := mem_validationGroup.mp grouped
    exact none job failed ⟨falls, nonblocked, sourceGroup_eq_nil.mp unsourced⟩

/-! ## The verdict -/

variable {results : List CategoryRepairResult} {names : List String}

theorem aggregate_eq_success :
    aggregate names results = .success ↔
      names = [] ∧ results ≠ [] ∧ ∀ result ∈ results, result.outcome = .succeeded := by
  have counted : results.countP (·.outcome = .succeeded) = results.length ↔
      ∀ result ∈ results, result.outcome = .succeeded := by
    rw [List.countP_eq_length]
    simp
  constructor
  · intro success
    unfold aggregate at success
    dsimp only at success
    split_ifs at success with introduced full
    exact ⟨not_not.mp introduced, full.1, counted.mp full.2⟩
  · rintro ⟨rfl, nonempty, succeeded⟩
    unfold aggregate
    rw [if_neg (not_not.mpr rfl)]
    exact if_pos ⟨nonempty, counted.mpr succeeded⟩

theorem benefit_of_aggregate
    (selected : ∀ result ∈ results, result.selection = .selected)
    (kept : aggregate names results = .success ∨ aggregate names results = .partialSuccess) :
    0 < verifiedSelectedSuccessCount results := by
  rcases kept with success | partialSuccess
  · obtain ⟨-, nonempty, succeeded⟩ := aggregate_eq_success.mp success
    obtain ⟨result, member⟩ := List.exists_mem_of_ne_nil results nonempty
    refine List.countP_pos_iff.mpr ⟨result, member, ?_⟩
    simp [CategoryRepairResult.verifiedBenefit, selected result member, succeeded result member]
  · unfold aggregate at partialSuccess
    dsimp only at partialSuccess
    split_ifs at partialSuccess with _ _ benefit
    · exact Nat.pos_of_ne_zero benefit

theorem selection_of_mem_selectedResults
    (member : result ∈ input.selectedResults env) :
    result.selection = .selected :=
  of_decide_eq_true (List.mem_filter.mp member).2

theorem evaluate_eq_success :
    (evaluateRepairOutcome env input).outcome = .success ↔
      input.validationReliable = true ∧
        (∃ category ∈ categoryOrder, category ∈ input.selectedCategories) ∧
        (∀ job ∈ input.validationFailedJobs, ∀ category ∈ input.selectedCategories,
          ¬ job.FallsIn env category) ∧
        ∀ job ∈ input.validationFailedJobs, ¬ input.Introduces env job := by
  rw [evaluateRepairOutcome, aggregate_eq_success, introducedNames_eq_nil]
  constructor
  · rintro ⟨unintroduced, nonempty, succeeded⟩
    have each : ∀ category ∈ categoryOrder, category ∈ input.selectedCategories →
        input.validationReliable = true ∧ input.validationGroup env category = [] := by
      intro category ordered selected
      have outcome := succeeded _ (mem_selectedResults.mpr ⟨category, ordered, selected, rfl⟩)
      rw [categoryResult_outcome selected] at outcome
      exact handledOutcome_succeeded.mp outcome
    obtain ⟨result, member⟩ := List.exists_mem_of_ne_nil _ nonempty
    obtain ⟨category, ordered, selected, -⟩ := mem_selectedResults.mp member
    refine ⟨(each category ordered selected).1, ⟨category, ordered, selected⟩, ?_, unintroduced⟩
    rintro job failed other chosen falls
    have inOrder : other ∈ categoryOrder := falls.2 ▸ env.categorizeFailedJob_mem_order _
    exact validationGroup_eq_nil.mp (each other inOrder chosen).2 job failed falls
  · rintro ⟨reliable, ⟨category, ordered, selected⟩, clear, unintroduced⟩
    refine ⟨unintroduced, List.ne_nil_of_mem
      (mem_selectedResults.mpr ⟨category, ordered, selected, rfl⟩), ?_⟩
    intro result member
    obtain ⟨other, -, chosen, rfl⟩ := mem_selectedResults.mp member
    rw [categoryResult_outcome chosen]
    exact handledOutcome_succeeded.mpr ⟨reliable, validationGroup_eq_nil.mpr
      fun job failed => clear job failed other chosen⟩

theorem evaluate_kept
    (kept : (evaluateRepairOutcome env input).outcome = .success ∨
      (evaluateRepairOutcome env input).outcome = .partialSuccess) :
    0 < verifiedSelectedSuccessCount (evaluateRepairOutcome env input).categoryResults := by
  change 0 < verifiedSelectedSuccessCount (input.categoryResults env)
  rw [verifiedSelectedSuccessCount_selected]
  exact benefit_of_aggregate (fun _ => selection_of_mem_selectedResults) kept

end OutcomeInput

/-! ## The automatic rollback -/

theorem count_of_autoRollbackRequired
    {count : Nat}
    {commits legacy : Bool}
    (required : autoRollbackRequired count commits legacy = true) :
    count = 0 := by
  simp only [autoRollbackRequired, Bool.and_eq_true, decide_eq_true_eq] at required
  exact required.1.1

theorem count_of_rollbackTriggerOk
    {env : CategoryEnv}
    {finish : FinishInput}
    {state : PipelineRepairState}
    {stored : TaskHash}
    {card : CardHash}
    {args : RollbackArgs}
    (automatic : args.trigger = .autoFailure)
    (recorded : stored.pipelineRepairState = some (finish.terminal env state))
    (admitted : Broker.rollbackTriggerOk stored card args = true) :
    finish.selectedSuccessCount env = 0 := by
  have fits := Broker.rollbackTriggerOk_fits admitted
  rw [automatic] at fits
  obtain ⟨-, repair, same, -, count⟩ := fits
  obtain rfl : finish.terminal env state = repair := Option.some.inj (recorded.symm.trans same)
  exact Option.some.inj count

/--
When a verdict is a success, what success and partial success rest on, and when
a repair is rolled back without a request.
-/
theorem repair_verdict_characterised (env : CategoryEnv) :
    (∀ input : OutcomeInput, (evaluateRepairOutcome env input).outcome = .success ↔
      input.validationReliable = true ∧
        (∃ category ∈ categoryOrder, category ∈ input.selectedCategories) ∧
        (∀ job ∈ input.validationFailedJobs, ∀ category ∈ input.selectedCategories,
          ¬ job.FallsIn env category) ∧
        ∀ job ∈ input.validationFailedJobs, ¬ input.Introduces env job) ∧
    (∀ input : OutcomeInput, (evaluateRepairOutcome env input).outcome = .success ∨
        (evaluateRepairOutcome env input).outcome = .partialSuccess →
      0 < verifiedSelectedSuccessCount (evaluateRepairOutcome env input).categoryResults) ∧
    (∀ finish : FinishInput, finish.rollbackRequired env = true →
      finish.selectedSuccessCount env = 0) ∧
    ∀ (finish : FinishInput) (state : PipelineRepairState) (stored : TaskHash) (card : CardHash)
      (args : RollbackArgs), args.trigger = .autoFailure →
      stored.pipelineRepairState = some (finish.terminal env state) →
      Broker.rollbackTriggerOk stored card args = true →
      finish.selectedSuccessCount env = 0 :=
  ⟨fun _ => OutcomeInput.evaluate_eq_success,
    fun _ => OutcomeInput.evaluate_kept,
    fun _ => count_of_autoRollbackRequired,
    fun _ _ _ _ _ => count_of_rollbackTriggerOk⟩

/-! A repair of the format after which no job fails. -/

namespace OutcomeSample

/-- Names in lower case and the built-in keywords. -/
def env : CategoryEnv where
  lower := id
  configured := fun _ => []

def repair : OutcomeInput where
  sourceFailedJobNames := ["code_format_check"]
  validationFailedJobs := []
  selectedCategories := [.format]

end OutcomeSample

open OutcomeSample in
theorem passed_format_is_success :
    (evaluateRepairOutcome env repair).outcome = .success :=
  ((repair_verdict_characterised env).1 repair).mpr
    ⟨rfl, ⟨.format, by decide, by decide⟩, by simp [repair], by simp [repair]⟩

/-! ## One more failed job -/

/-- The order of the outcomes, the best on top. -/
def RepairOutcome.rank : RepairOutcome → Nat
  | success => 3
  | partialSuccess => 2
  | blocked => 1
  | failed => 0

namespace OutcomeInput

/-- The same repair with other failed jobs after it. -/
def withFailures (input : OutcomeInput) (jobs : List ValidationJob) : OutcomeInput :=
  { input with validationFailedJobs := jobs }

section Growth

variable
  {env : CategoryEnv}
  {input : OutcomeInput}
  {fewer more : List ValidationJob}
  {category : RepairCategory}

theorem validationGroup_grow (grows : fewer ⊆ more) :
    (input.withFailures fewer).validationGroup env category ⊆
      (input.withFailures more).validationGroup env category := by
  intro name member
  obtain ⟨job, failed, same, falls⟩ := mem_validationGroup.mp member
  exact mem_validationGroup.mpr ⟨job, grows failed, same, falls⟩

theorem nonblockedGroup_grow (grows : fewer ⊆ more) :
    (input.withFailures fewer).nonblockedGroup env category ⊆
      (input.withFailures more).nonblockedGroup env category := by
  intro name member
  obtain ⟨grouped, nonblocked⟩ := List.mem_filter.mp member
  exact List.mem_filter.mpr ⟨validationGroup_grow grows grouped, nonblocked⟩

theorem introducedNames_grow (grows : fewer ⊆ more) :
    (input.withFailures fewer).introducedNames env ⊆
      (input.withFailures more).introducedNames env := by
  intro name member
  obtain ⟨grouped, unsourced, nonblocked⟩ := mem_introducedNames.mp member
  exact mem_introducedNames.mpr ⟨validationGroup_grow grows grouped, unsourced, nonblocked⟩

theorem succeeded_of_grow
    (grows : fewer ⊆ more)
    (succeeded : (input.withFailures more).handledOutcome env category = .succeeded) :
    (input.withFailures fewer).handledOutcome env category = .succeeded := by
  obtain ⟨reliable, clear⟩ := handledOutcome_succeeded.mp succeeded
  refine handledOutcome_succeeded.mpr ⟨reliable, ?_⟩
  exact List.subset_nil.mp (clear ▸ validationGroup_grow grows)

theorem unfailed_of_grow
    (reliable : input.validationReliable = true)
    (grows : fewer ⊆ more)
    (blocked : (input.withFailures more).handledOutcome env category = .blocked) :
    (input.withFailures fewer).handledOutcome env category = .succeeded ∨
      (input.withFailures fewer).handledOutcome env category = .blocked := by
  have clear : (input.withFailures more).nonblockedGroup env category = [] := by
    by_contra failed
    simp [handledOutcome, failed] at blocked
  have clearBefore : (input.withFailures fewer).nonblockedGroup env category = [] :=
    List.subset_nil.mp (clear ▸ nonblockedGroup_grow grows)
  have trusted : (input.withFailures fewer).validationReliable = true := reliable
  by_cases none : (input.withFailures fewer).blockedGroup env category = []
  · exact Or.inl (by simp [handledOutcome, clearBefore, none, trusted])
  · exact Or.inr (by simp [handledOutcome, clearBefore, none])

theorem verified_of_reliable
    (reliable : input.validationReliable = true) :
    input.handledOutcome env category ≠ .unverified := by
  unfold handledOutcome
  split
  · simp
  · split
    · simp
    · simp [reliable]

theorem withFailures_outcome
    (chosen : category ∈ input.selectedCategories)
    (jobs : List ValidationJob) :
    ((input.withFailures jobs).categoryResult env category).outcome =
      (input.withFailures jobs).handledOutcome env category :=
  categoryResult_outcome chosen

theorem verifiedBenefit_of_grow
    (reliable : input.validationReliable = true)
    (grows : fewer ⊆ more)
    (benefit : ((input.withFailures more).categoryResult env category).verifiedBenefit = true) :
    ((input.withFailures fewer).categoryResult env category).verifiedBenefit = true := by
  simp only [CategoryRepairResult.verifiedBenefit, Bool.and_eq_true, Bool.or_eq_true,
    decide_eq_true_eq] at benefit ⊢
  obtain ⟨selected, gained⟩ := benefit
  have chosen : category ∈ input.selectedCategories := selection_eq_selected.mp selected
  refine ⟨selected, ?_⟩
  rw [withFailures_outcome chosen] at gained ⊢
  rcases gained with succeeded | ⟨-, repaired⟩
  · exact Or.inl (succeeded_of_grow grows succeeded)
  · refine Or.inr ⟨verified_of_reliable reliable, ?_⟩
    obtain ⟨name, member⟩ := List.exists_mem_of_ne_nil _ repaired
    have trusted : ∀ jobs, (input.withFailures jobs).validationReliable = true :=
      fun _ => reliable
    obtain ⟨source, passed⟩ := (mem_verifiedRepairedNames (trusted more)).mp member
    exact List.ne_nil_of_mem ((mem_verifiedRepairedNames (trusted fewer)).mpr
      ⟨source, fun failed => passed (validationGroup_grow grows failed)⟩)

theorem count_of_grow
    (reliable : input.validationReliable = true)
    (grows : fewer ⊆ more)
    (counted : verifiedSelectedSuccessCount ((input.withFailures more).selectedResults env) ≠ 0) :
    verifiedSelectedSuccessCount ((input.withFailures fewer).selectedResults env) ≠ 0 := by
  obtain ⟨result, member, benefit⟩ := List.countP_pos_iff.mp (Nat.pos_of_ne_zero counted)
  obtain ⟨category, ordered, selected, rfl⟩ := mem_selectedResults.mp member
  refine Nat.ne_of_gt (List.countP_pos_iff.mpr ⟨_, ?_, verifiedBenefit_of_grow reliable grows benefit⟩)
  exact mem_selectedResults.mpr ⟨category, ordered, selected, rfl⟩

theorem succeeded_results_of_grow
    (grows : fewer ⊆ more)
    (succeeded : ∀ result ∈ (input.withFailures more).selectedResults env,
      result.outcome = .succeeded) :
    ∀ result ∈ (input.withFailures fewer).selectedResults env, result.outcome = .succeeded := by
  intro result member
  obtain ⟨category, ordered, selected, rfl⟩ := mem_selectedResults.mp member
  have chosen : category ∈ input.selectedCategories := selected
  have after := succeeded _ (mem_selectedResults.mpr ⟨category, ordered, chosen, rfl⟩)
  rw [withFailures_outcome chosen] at after ⊢
  exact succeeded_of_grow grows after

theorem blocked_results_of_grow
    (reliable : input.validationReliable = true)
    (grows : fewer ⊆ more)
    (blocked : ∀ result ∈ (input.withFailures more).selectedResults env,
      result.outcome = .blocked) :
    (∀ result ∈ (input.withFailures fewer).selectedResults env, result.outcome = .blocked) ∨
      verifiedSelectedSuccessCount ((input.withFailures fewer).selectedResults env) ≠ 0 := by
  by_cases every : ∀ result ∈ (input.withFailures fewer).selectedResults env,
      result.outcome = .blocked
  · exact Or.inl every
  · refine Or.inr ?_
    push Not at every
    obtain ⟨result, member, unblocked⟩ := every
    obtain ⟨category, ordered, selected, rfl⟩ := mem_selectedResults.mp member
    have chosen : category ∈ input.selectedCategories := selected
    have after := blocked _ (mem_selectedResults.mpr ⟨category, ordered, chosen, rfl⟩)
    rw [withFailures_outcome chosen] at after unblocked
    have succeeded := (unfailed_of_grow reliable grows after).resolve_right unblocked
    refine Nat.ne_of_gt (List.countP_pos_iff.mpr ⟨_, member, ?_⟩)
    simp [CategoryRepairResult.verifiedBenefit, withFailures_outcome chosen, succeeded,
      selection_of_mem_selectedResults member]

theorem selectedResults_eq_nil_of_grow
    (empty : (input.withFailures fewer).selectedResults env = []) :
    (input.withFailures more).selectedResults env = [] := by
  rw [selectedResults_eq, List.map_eq_nil_iff] at empty ⊢
  exact empty

end Growth

theorem rank_aggregate_le
    {names namesAfter : List String}
    {results resultsAfter : List CategoryRepairResult}
    (introduced : names ≠ [] → namesAfter ≠ [])
    (nonempty : results = [] → resultsAfter = [])
    (succeeded : (∀ result ∈ resultsAfter, result.outcome = .succeeded) →
      ∀ result ∈ results, result.outcome = .succeeded)
    (benefit : verifiedSelectedSuccessCount resultsAfter ≠ 0 →
      verifiedSelectedSuccessCount results ≠ 0)
    (blocked : (∀ result ∈ resultsAfter, result.outcome = .blocked) →
      (∀ result ∈ results, result.outcome = .blocked) ∨
        verifiedSelectedSuccessCount results ≠ 0) :
    (aggregate namesAfter resultsAfter).rank ≤ (aggregate names results).rank := by
  by_cases success : aggregate namesAfter resultsAfter = .success
  · obtain ⟨unintroduced, selected, all⟩ := aggregate_eq_success.mp success
    have before : aggregate names results = .success := aggregate_eq_success.mpr
      ⟨by_contra fun some => introduced some unintroduced,
        fun empty => selected (nonempty empty), succeeded all⟩
    rw [success, before]
  · -- The other outcomes are compared in the order in which they are decided.
    cases outcome : aggregate namesAfter resultsAfter with
    | success =>
        exact absurd outcome success
    | failed =>
        exact Nat.zero_le _
    | partialSuccess =>
        have clear : namesAfter = [] ∧ verifiedSelectedSuccessCount resultsAfter ≠ 0 := by
          unfold aggregate at outcome
          dsimp only at outcome
          split_ifs at outcome with introducedAfter _ counted
          exact ⟨not_not.mp introducedAfter, counted⟩
        have before := benefit clear.2
        have unintroduced : names = [] := by_contra fun some => introduced some clear.1
        unfold aggregate
        dsimp only
        split_ifs <;> simp_all [RepairOutcome.rank]
    | blocked =>
        have clear : namesAfter = [] ∧ resultsAfter ≠ [] ∧
            ∀ result ∈ resultsAfter, result.outcome = .blocked := by
          unfold aggregate at outcome
          dsimp only at outcome
          split_ifs at outcome with introducedAfter _ _ all
          refine ⟨not_not.mp introducedAfter, all.1, ?_⟩
          simpa using all.2
        have before := blocked clear.2.2
        have selected : results ≠ [] := fun empty => clear.2.1 (nonempty empty)
        have unintroduced : names = [] := by_contra fun some => introduced some clear.1
        unfold aggregate
        dsimp only
        split_ifs <;> simp_all [RepairOutcome.rank]

theorem rank_of_grow
    {env : CategoryEnv}
    {input : OutcomeInput}
    {fewer more : List ValidationJob}
    (reliable : input.validationReliable = true)
    (grows : fewer ⊆ more) :
    (evaluateRepairOutcome env (input.withFailures more)).outcome.rank ≤
      (evaluateRepairOutcome env (input.withFailures fewer)).outcome.rank := by
  apply rank_aggregate_le
  · intro introduced empty
    exact introduced (List.subset_nil.mp (empty ▸ introducedNames_grow grows))
  · exact selectedResults_eq_nil_of_grow
  · exact succeeded_results_of_grow grows
  · exact count_of_grow reliable grows
  · exact blocked_results_of_grow reliable grows

end OutcomeInput

/--
With a reliable validation one more failed job, wherever it stands in the list,
does not improve the verdict and does not spare the commits.
-/
theorem extra_failure_never_improves
    (env : CategoryEnv)
    (input : OutcomeInput)
    (reliable : input.validationReliable = true)
    (front back : List ValidationJob)
    (job : ValidationJob)
    (hasRepairCommits : Bool)
    (pipelineStatus : String) :
    let before := input.withFailures (front ++ back)
    let after := input.withFailures (front ++ job :: back)
    (evaluateRepairOutcome env after).outcome.rank ≤
        (evaluateRepairOutcome env before).outcome.rank ∧
      (autoRollbackRequired
          (verifiedSelectedSuccessCount (evaluateRepairOutcome env before).categoryResults)
          hasRepairCommits
          (legacyPipelineSuccess before.selectedCategories pipelineStatus
            before.validationFailedJobs) = true →
        autoRollbackRequired
          (verifiedSelectedSuccessCount (evaluateRepairOutcome env after).categoryResults)
          hasRepairCommits
          (legacyPipelineSuccess after.selectedCategories pipelineStatus
            after.validationFailedJobs) = true) := by
  intro before after
  have grows : front ++ back ⊆ front ++ job :: back := by
    intro other member
    rcases List.mem_append.mp member with early | late
    · exact List.mem_append_left _ early
    · exact List.mem_append_right _ (List.mem_cons_of_mem _ late)
  refine ⟨OutcomeInput.rank_of_grow reliable grows, ?_⟩
  intro required
  simp only [autoRollbackRequired, Bool.and_eq_true, decide_eq_true_eq] at required ⊢
  obtain ⟨⟨count, commits⟩, -⟩ := required
  refine ⟨⟨?_, commits⟩, ?_⟩
  · change verifiedSelectedSuccessCount (before.categoryResults env) = 0 at count
    change verifiedSelectedSuccessCount (after.categoryResults env) = 0
    rw [OutcomeInput.verifiedSelectedSuccessCount_selected] at count ⊢
    by_contra counted
    exact OutcomeInput.count_of_grow reliable grows counted count
  · -- A pipeline with a failed job is never a success of its own.
    have failed : after.validationFailedJobs ≠ [] := by simp [after, OutcomeInput.withFailures]
    simp [legacyPipelineSuccess, failed]

open OutcomeSample in
theorem failed_build_after_passed_format :
    (evaluateRepairOutcome env (repair.withFailures [⟨"build", true⟩])).outcome.rank ≤
      (evaluateRepairOutcome env (repair.withFailures [])).outcome.rank :=
  (extra_failure_never_improves env repair rfl [] [] ⟨"build", true⟩ true "failed").1

end MrAgent
