import MrAgent.GroupedList
import MrAgent.PlanLineage
import MrAgent.TextCut

namespace MrAgent

/-!
# Plans that are written and cannot be read

The planner stores a plan whose items were updated after their validation;
`latest_repair_plan` validates the stored record again. A text that was cut
right behind a space loses that space, and a list of paths that a revision has
made too long is rejected.
-/

/-! ## What a second reading changes -/

theorem safePath_idempotent
    {path normal : String}
    (safe : safePath path = some normal) :
    safePath normal = some normal := by
  unfold safePath at safe ⊢
  dsimp only at safe ⊢
  have slash : ∀ c, isSpace (if c = '\\' then '/' else c) = isSpace c := by
    intro c
    split
    · rename_i backslash
      rw [backslash]
      decide
    · rfl
  have stripped :
      ∀ l : List Char,
        strip (l.map fun c => if c = '\\' then '/' else c) =
          (strip l).map fun c => if c = '\\' then '/' else c := by
    intro l
    simp only [strip, List.dropWhile_map, ← List.map_reverse, Function.comp_def, slash]
  split at safe
  · cases safe
  · split at safe
    · cases safe
    · rename_i relative clean
      cases safe
      have fixed :
          (strip (String.ofList
            ((strip path.toList).map fun c => if c = '\\' then '/' else c)).toList).map
              (fun c => if c = '\\' then '/' else c) =
            (strip path.toList).map fun c => if c = '\\' then '/' else c := by
        rw [String.toList_ofList, stripped, strip_strip, List.map_map]
        apply List.map_congr_left
        intro c _
        by_cases backslash : c = '\\' <;> simp [backslash]
      rw [fixed, if_neg relative, if_neg clean]

variable {values read : List String}

theorem boundedUniqueValues_eq_some :
    boundedUniqueValues values = some read ↔
      read = values.map (boundedText · 500) ∧ "" ∉ read ∧ read.Nodup := by
  unfold boundedUniqueValues
  dsimp only
  split
  · rename_i invalid
    simp only [reduceCtorEq, false_iff, not_and]
    rintro rfl present unique
    simp_all
  · rename_i valid
    simp only [Option.some.injEq]
    constructor
    · rintro rfl
      simp_all
    · rintro ⟨rfl, -, -⟩
      rfl

/-- Cutting a text a second time changes nothing: the cut did not fall behind a space. -/
def StableText (value : String) : Prop :=
  boundedText (boundedText value 500) 500 = boundedText value 500

instance (value : String) : Decidable (StableText value) :=
  inferInstanceAs (Decidable (_ = _))

theorem boundedUniqueValues_again
    (accepted : boundedUniqueValues values = some read) :
    boundedUniqueValues read = some read ↔ ∀ value ∈ values, StableText value := by
  obtain ⟨rfl, present, unique⟩ := boundedUniqueValues_eq_some.mp accepted
  rw [boundedUniqueValues_eq_some]
  constructor
  · rintro ⟨fixed, -, -⟩ value member
    rw [List.map_map] at fixed
    exact (List.map_inj_left.mp fixed value member).symm
  · intro stable
    refine ⟨?_, present, unique⟩
    rw [List.map_map]
    apply List.map_inj_left.mpr
    intro value member
    exact (stable value member).symm

theorem validatePaths_self
    {paths : List String}
    (normal : ∀ path ∈ paths, safePath path = some path)
    (unique : paths.Nodup) :
    validatePaths paths = some paths := by
  have read : paths.mapM safePath = some paths := by
    apply FallibleProgram.mapM_eq_some_iff.mpr
    exact List.forall₂_same.mpr normal
  rw [validatePaths, read]
  exact if_pos unique

theorem exists_source
    {α β : Type}
    {read : α → Option β}
    {stored : List α}
    {values : List β}
    (pairs : List.Forall₂ (fun a b => read a = some b) stored values)
    {value : β}
    (member : value ∈ values) :
    ∃ source, read source = some value := by
  induction pairs with
  | nil =>
      cases member
  | cons first _ ih =>
      rcases List.mem_cons.mp member with rfl | later
      · exact ⟨_, first⟩
      · exact ih later

theorem validatePaths_normal
    {paths read : List String}
    (accepted : validatePaths paths = some read) :
    read.length = paths.length ∧ read.Nodup ∧ ∀ path ∈ read, safePath path = some path := by
  unfold validatePaths at accepted
  split at accepted
  · cases accepted
  · rename_i normalised each
    split at accepted
    · rename_i unique
      cases accepted
      have pairs := FallibleProgram.mapM_eq_some_iff.mp each
      refine ⟨pairs.length_eq.symm, unique, ?_⟩
      intro path member
      obtain ⟨raw, safe⟩ := exists_source pairs member
      exact safePath_idempotent safe
    · cases accepted

namespace RepairWorkItem

/-- The texts of an item that its reader normalises. -/
def texts (item : RepairWorkItem) : List String :=
  item.jobNames ++ item.failureEvidence ++ item.requiredChecks

theorem modelValidate_self
    {item : RepairWorkItem} :
    item.modelValidate = some item ↔
      item.fieldsValid = true ∧ boundedUniqueValues item.jobNames = some item.jobNames ∧
        boundedUniqueValues item.failureEvidence = some item.failureEvidence ∧
        boundedUniqueValues item.requiredChecks = some item.requiredChecks ∧
        validatePaths item.allowedPaths = some item.allowedPaths := by
  constructor
  · intro accepted
    obtain ⟨fields, jobs, evidence, checks, paths, -⟩ := modelValidate_cases accepted
    exact ⟨fields, jobs, evidence, checks, paths⟩
  · rintro ⟨fields, jobs, evidence, checks, paths⟩
    simp only [modelValidate, fields, jobs, evidence, checks, paths, if_true]

theorem fieldsValid_of_modelValidate
    {item read : RepairWorkItem}
    (accepted : item.modelValidate = some read) :
    read.fieldsValid = true := by
  obtain ⟨fields, jobs, evidence, checks, paths, same⟩ := modelValidate_cases accepted
  obtain ⟨jobs, -, -⟩ := boundedUniqueValues_eq_some.mp jobs
  obtain ⟨evidence, -, -⟩ := boundedUniqueValues_eq_some.mp evidence
  obtain ⟨checks, -, -⟩ := boundedUniqueValues_eq_some.mp checks
  obtain ⟨pathCount, -, -⟩ := validatePaths_normal paths
  rw [same]
  unfold fieldsValid at fields ⊢
  simpa only [jobs, evidence, checks, pathCount, List.length_map] using fields

/--
An item that was read once, then given another hypothesis, paths and status, is
read back unchanged exactly when the paths are few enough and its texts stable.
-/
theorem modelValidate_updated
    {draft read item : RepairWorkItem}
    (accepted : draft.modelValidate = some read)
    (updated :
      item =
        { read with
          hypothesis := item.hypothesis
          allowedPaths := item.allowedPaths
          status := item.status })
    (hypothesis : item.hypothesis.length ≤ 1000)
    (normal : ∀ path ∈ item.allowedPaths, safePath path = some path)
    (unique : item.allowedPaths.Nodup) :
    item.modelValidate = some item ↔
      item.allowedPaths.length ≤ maxWorkItemPaths ∧ ∀ text ∈ draft.texts, StableText text := by
  have readFields := fieldsValid_of_modelValidate accepted
  obtain ⟨-, jobs, evidence, checks, -, -⟩ := modelValidate_cases accepted
  have fields :
      item.fieldsValid = true ↔ item.allowedPaths.length ≤ maxWorkItemPaths := by
    rw [updated]
    unfold fieldsValid lengthIn at readFields ⊢
    simp only [Bool.and_eq_true, decide_eq_true_eq] at readFields ⊢
    constructor
    · intro valid
      exact valid.1.2
    · intro bound
      obtain ⟨⟨⟨others, -⟩, -⟩, checkCount⟩ := readFields
      exact ⟨⟨⟨others, ⟨Nat.zero_le _, hypothesis⟩⟩, bound⟩, checkCount⟩
  have jobNames : item.jobNames = read.jobNames := by rw [updated]
  have failureEvidence : item.failureEvidence = read.failureEvidence := by rw [updated]
  have requiredChecks : item.requiredChecks = read.requiredChecks := by rw [updated]
  rw [modelValidate_self, fields, jobNames, failureEvidence, requiredChecks,
    boundedUniqueValues_again jobs, boundedUniqueValues_again evidence,
    boundedUniqueValues_again checks, validatePaths_self normal unique]
  simp only [texts, List.mem_append, or_imp, forall_and]
  tauto

end RepairWorkItem

theorem length_boundedText_le (value : String) (limit : Nat) :
    (boundedText value limit).length ≤ limit := by
  simp only [boundedText, String.length_ofList]
  exact List.length_take_le _ _

/-! ## Items of a plan that is written -/

theorem RepairWorkItem.texts_of_modelValidate
    {item read : RepairWorkItem}
    (accepted : item.modelValidate = some read) :
    read.texts = item.texts.map (boundedText · 500) := by
  obtain ⟨-, jobs, evidence, checks, -, -⟩ := modelValidate_cases accepted
  obtain ⟨jobs, -, -⟩ := boundedUniqueValues_eq_some.mp jobs
  obtain ⟨evidence, -, -⟩ := boundedUniqueValues_eq_some.mp evidence
  obtain ⟨checks, -, -⟩ := boundedUniqueValues_eq_some.mp checks
  simp only [texts, jobs, evidence, checks, List.map_append]

theorem RepairWorkItem.stable_iff_normal
    {item read : RepairWorkItem}
    (accepted : item.modelValidate = some read) :
    (∀ text ∈ item.texts, StableText text) ↔ ∀ text ∈ read.texts, boundedText text 500 = text := by
  rw [texts_of_modelValidate accepted]
  simp only [List.mem_map, forall_exists_index, and_imp, forall_apply_eq_imp_iff₂]
  exact Iff.rfl

variable {s : AgentState} {author : PlanAuthor}

theorem initial_item_readback
    {env : PlanEnv}
    {draft read : RepairWorkItem}
    (accepted : draft.modelValidate = some read) :
    (markExhausted env s (author.hypothesise read)).modelValidate =
        some (markExhausted env s (author.hypothesise read)) ↔
      ∀ text ∈ draft.texts, StableText text := by
  have readFields := RepairWorkItem.fieldsValid_of_modelValidate accepted
  obtain ⟨-, -, -, -, paths, -⟩ := RepairWorkItem.modelValidate_cases accepted
  obtain ⟨-, unique, normal⟩ := validatePaths_normal paths
  simp only [RepairWorkItem.fieldsValid, lengthIn, Bool.and_eq_true, decide_eq_true_eq]
    at readFields
  obtain ⟨⟨⟨-, -, hypothesis⟩, pathCount⟩, -⟩ := readFields
  have authored :
      author.hypothesise read = { read with hypothesis := (author.hypothesise read).hypothesis } ∧
        (author.hypothesise read).hypothesis.length ≤ 1000 := by
    unfold PlanAuthor.hypothesise
    split
    · exact ⟨rfl, hypothesis⟩
    · exact ⟨rfl, length_boundedText_le _ _⟩
  have marked :
      markExhausted env s (author.hypothesise read) =
        { author.hypothesise read with
          status := (markExhausted env s (author.hypothesise read)).status } := by
    unfold markExhausted
    split <;> rfl
  have keptPaths :
      (markExhausted env s (author.hypothesise read)).allowedPaths = read.allowedPaths := by
    rw [marked, authored.1]
  rw [RepairWorkItem.modelValidate_updated accepted]
  · rw [keptPaths]
    exact and_iff_right pathCount
  · rw [marked, authored.1]
  · rw [marked]
    exact authored.2
  · rw [keptPaths]
    exact normal
  · rw [keptPaths]
    exact unique

variable {request : ReplanRequest}

theorem revised_item_readback
    {proposed : List String}
    (proposedNormal : ∀ path ∈ proposed, safePath path = some path)
    {draft read : RepairWorkItem}
    (accepted : draft.modelValidate = some read) :
    (reviseItem request proposed read).modelValidate = some (reviseItem request proposed read) ↔
      (read.workItemId = request.workItemId →
          (read.allowedPaths ++ proposed).eraseDups.length ≤ maxWorkItemPaths) ∧
        ∀ text ∈ read.texts, boundedText text 500 = text := by
  have readFields := RepairWorkItem.fieldsValid_of_modelValidate accepted
  obtain ⟨-, -, -, -, paths, -⟩ := RepairWorkItem.modelValidate_cases accepted
  obtain ⟨-, unique, normal⟩ := validatePaths_normal paths
  rw [← RepairWorkItem.stable_iff_normal accepted]
  by_cases target : read.workItemId = request.workItemId
  · have revised :
        reviseItem request proposed read =
          { read with
            hypothesis :=
              String.ofList ((orElse request.hypothesis read.hypothesis).toList.take 1000)
            allowedPaths := (read.allowedPaths ++ proposed).eraseDups } :=
      if_pos target
    rw [RepairWorkItem.modelValidate_updated accepted]
    · rw [revised]
      simp [target]
    · rw [revised]
    · rw [revised, String.length_ofList]
      exact List.length_take_le _ _
    · rw [revised]
      intro path member
      rcases List.mem_append.mp (List.mem_eraseDups.mp member) with old | new
      · exact normal path old
      · exact proposedNormal path new
    · rw [revised]
      exact GroupedList.nodup_eraseDups _
  · have kept : reviseItem request proposed read = read := if_neg target
    simp only [RepairWorkItem.fieldsValid, lengthIn, Bool.and_eq_true, decide_eq_true_eq]
      at readFields
    rw [kept, RepairWorkItem.modelValidate_updated accepted rfl readFields.1.1.2.2 normal unique]
    simp [target, readFields.1.2]

variable {plan : RepairPlan}

theorem RepairPlan.modelValidate_self :
    plan.modelValidate = some plan ↔
      plan.fieldsValid = true ∧ ∀ item ∈ plan.workItems, item.modelValidate = some item := by
  constructor
  · intro accepted
    obtain ⟨items, -, fields⟩ := modelValidate_cases accepted
    exact ⟨fields, List.forall₂_same.mp items⟩
  · rintro ⟨fields, items⟩
    have read : plan.workItems.mapM RepairWorkItem.modelValidate = some plan.workItems :=
      FallibleProgram.mapM_eq_some_iff.mpr (List.forall₂_same.mpr items)
    simp [modelValidate, read, construct, fields]

/-! ## Which written plans are read back -/

/-- The last readable plan of a lineage. -/
def latestOfLineage (s : AgentState) (lineage : String) : Option RepairPlan :=
  ((readablePlans s).filter (·.lineageId = lineage)).getLast?

/-- The written plan is the one that is read, and it continues its lineage. -/
structure ReadBack (s : AgentState) (written : RepairPlan) : Prop where
  latest : latestRepairPlan (s.addPlan written) = some written
  version : ∀ previous,
    latestOfLineage s written.lineageId = some previous → written.version = previous.version + 1
  cursor : ∀ previous,
    latestRepairPlan s = some previous → previous.evidenceCursor < written.evidenceCursor

/--
A first plan for the latest failed Pipeline is read back: its texts are stable,
its lineage and evidence new, and the code of a failed model call fits its field.
-/
structure FirstPlanReadable
    (env : PlanEnv)
    (s : AgentState)
    (reply : PlannerReply)
    (pipeline : ToolResult) : Prop where
  stable : ∀ draft ∈ draftWorkItems env pipeline, ∀ text ∈ draft.texts, StableText text
  lineage : ∀ other ∈ readablePlans s,
    other.lineageId ≠ lineageIdentifier env s (pipelineIdentity env s pipeline)
  evidence : ∀ previous,
    latestRepairPlan s = some previous →
    previous.evidenceCursor < newestEvidence (buildExecutionLedger s.messages) (-1)
  code : ∀ name,
    reply = .failed name →
    (∃ draft ∈ draftWorkItems env pipeline, (markExhausted env s draft).status = .pending) →
    name.length ≤ 83

/--
When a revision of a plan is read back: the texts of the plan are in normal
form, and the requested item does not collect too many paths.
-/
def RevisionReadable (plan : RepairPlan) (request : ReplanRequest) (proposed : List String) :
    Prop :=
  ∀ item ∈ plan.workItems,
    (item.workItemId = request.workItemId →
        (item.allowedPaths ++ proposed.eraseDups).eraseDups.length ≤ maxWorkItemPaths) ∧
      ∀ text ∈ item.texts, boundedText text 500 = text

/-- The condition under which the planner's next plan is read back. -/
def PlannerReadable (env : PlanEnv) (s : AgentState) (reply : PlannerReply) : Prop :=
  (repairPlanRequired env s = true →
      ∀ pipeline,
        latestFailedPipeline s.messages = some pipeline →
        FirstPlanReadable env s reply pipeline) ∧
    (repairPlanRequired env s = false →
      ∀ plan request proposed,
        latestRepairPlan s = some plan →
        (latestReplanRequest s plan).or (verifierReplanRequest s plan) = some request →
        request.proposedPaths.mapM normalizeRepairPath = some proposed →
        RevisionReadable plan request proposed)

variable {now : String}

theorem buildInitialRepairPlan_matches
    {env : PlanEnv}
    (built : buildInitialRepairPlan env s now author = some plan) :
    planMatchesLatestPipeline env s plan = true := by
  unfold buildInitialRepairPlan at built
  simp only [Option.bind_eq_bind, Option.bind_eq_some_iff, Option.guard_eq_some', exists_and_left,
    exists_const] at built
  obtain ⟨pipeline, failed, -, items, -, -, built⟩ := built
  obtain ⟨-, same⟩ := RepairPlan.construct_eq_some.mp built
  unfold planMatchesLatestPipeline
  rw [failed, same]
  simp

theorem initial_items_readback
    {env : PlanEnv}
    {pipeline : ToolResult}
    {items : List RepairWorkItem}
    (made : workItemsFromPipeline env pipeline = some items) :
    (∀ item ∈ (items.map author.hypothesise).map (markExhausted env s),
        item.modelValidate = some item) ↔
      ∀ draft ∈ draftWorkItems env pipeline, ∀ text ∈ draft.texts, StableText text := by
  unfold workItemsFromPipeline at made
  rw [Option.map_eq_some_iff] at made
  obtain ⟨reads, each, rfl⟩ := made
  have pairs := FallibleProgram.mapM_eq_some_iff.mp each
  simp only [List.map_map, List.mem_map, List.mem_insertionSort, Function.comp_apply,
    forall_exists_index, and_imp, forall_apply_eq_imp_iff₂]
  clear each
  generalize draftWorkItems env pipeline = drafts at pairs ⊢
  induction pairs with
  | nil =>
      simp
  | cons first _ ih =>
      simp only [List.mem_cons, forall_eq_or_imp, ih,
        initial_item_readback first]

theorem fallback_pending_iff
    {env : PlanEnv}
    {pipeline : ToolResult}
    {fallback : RepairPlan}
    (failed : latestFailedPipeline s.messages = some pipeline)
    (built : buildInitialRepairPlan env s now {} = some fallback) :
    fallback.executableIds ≠ [] ↔
      ∃ draft ∈ draftWorkItems env pipeline, (markExhausted env s draft).status = .pending := by
  obtain ⟨latest, items, sameFailed, made, -, contents, -⟩ := buildInitialRepairPlan_cases built
  obtain rfl : pipeline = latest := Option.some.inj (failed.symm.trans sameFailed)
  unfold workItemsFromPipeline at made
  rw [Option.map_eq_some_iff] at made
  obtain ⟨reads, each, rfl⟩ := made
  have pairs := FallibleProgram.mapM_eq_some_iff.mp each
  have plain : ∀ item, PlanAuthor.hypothesise {} item = item := fun _ => rfl
  have pendingReads :
      fallback.executableIds ≠ [] ↔
        ∃ read ∈ reads, (markExhausted env s read).status = .pending := by
    unfold RepairPlan.executableIds
    rw [contents]
    simp [plain, List.filter_eq_nil_iff]
  rw [pendingReads]
  clear pendingReads contents each
  generalize draftWorkItems env pipeline = drafts at pairs ⊢
  induction pairs with
  | nil =>
      simp
  | @cons draft read _ _ first _ ih =>
      obtain ⟨-, -, -, -, -, same⟩ := RepairWorkItem.modelValidate_cases first
      have sameId : read.workItemId = draft.workItemId := congrArg (·.workItemId) same
      have sameStatus : read.status = draft.status := congrArg (·.status) same
      have sameMark :
          (markExhausted env s read).status = (markExhausted env s draft).status := by
        unfold markExhausted
        rw [sameId, sameStatus]
        split
        · rfl
        · exact sameStatus
      simp only [List.mem_cons, exists_eq_or_imp, ih, sameMark]

theorem readablePlans_version_pos
    (readable : plan ∈ readablePlans s) :
    1 ≤ plan.version := by
  obtain ⟨raw, -, accepted⟩ := List.mem_filterMap.mp readable
  obtain ⟨-, -, fields⟩ := RepairPlan.modelValidate_cases accepted
  simp only [RepairPlan.fieldsValid, Bool.and_eq_true, decide_eq_true_eq] at fields
  tauto

theorem fieldsValid_with_code
    (fields : plan.fieldsValid = true)
    (code : String) :
    { plan with plannerErrorCode := code }.fieldsValid = true ↔ code.length ≤ 100 := by
  unfold RepairPlan.fieldsValid RepairPlan.ids lengthIn at fields ⊢
  simp only [Bool.and_eq_true, decide_eq_true_eq] at fields ⊢
  constructor
  · intro valid
    exact valid.1.1.2.2
  · intro bound
    exact ⟨⟨⟨fields.1.1.1, Nat.zero_le _, bound⟩, fields.1.2⟩, fields.2⟩

theorem first_version_iff
    {lineage : String} :
    (∀ previous, latestOfLineage s lineage = some previous → 1 = previous.version + 1) ↔
      ∀ other ∈ readablePlans s, other.lineageId ≠ lineage := by
  constructor
  · intro continues other member same
    have nonempty : (readablePlans s).filter (·.lineageId = lineage) ≠ [] :=
      List.ne_nil_of_mem (List.mem_filter.mpr ⟨member, by simpa using same⟩)
    have last := List.getLast?_eq_getLast_of_ne_nil nonempty
    have inside := List.mem_of_mem_filter (List.getLast_mem nonempty)
    have positive := readablePlans_version_pos inside
    have next := continues _ last
    omega
  · intro fresh previous last
    have inside := List.mem_filter.mp (List.mem_of_getLast? last)
    exact absurd (by simpa using inside.2) (fresh previous inside.1)

theorem latestOfLineage_latest
    (latest : latestRepairPlan s = some plan) :
    latestOfLineage s plan.lineageId = some plan := by
  rw [latestRepairPlan_eq] at latest
  obtain ⟨earlier, split⟩ := List.getLast?_eq_some_iff.mp latest
  unfold latestOfLineage
  rw [split, List.filter_append]
  simp

theorem first_plan_readback
    {env : PlanEnv}
    {built : RepairPlan}
    {pipeline : ToolResult}
    (failed : latestFailedPipeline s.messages = some pipeline)
    (made : buildInitialRepairPlan env s now author = some built)
    (code : String) :
    { built with plannerErrorCode := code }.modelValidate =
        some { built with plannerErrorCode := code } ↔
      code.length ≤ 100 ∧
        ∀ draft ∈ draftWorkItems env pipeline, ∀ text ∈ draft.texts, StableText text := by
  obtain ⟨latest, items, sameFailed, itemsMade, fields, contents, -⟩ :=
    buildInitialRepairPlan_cases made
  obtain rfl : pipeline = latest := Option.some.inj (failed.symm.trans sameFailed)
  rw [RepairPlan.modelValidate_self, fieldsValid_with_code fields, contents,
    initial_items_readback itemsMade]

variable {reply : PlannerReply}

theorem initialPlan_readback
    {env : PlanEnv}
    {pipeline : ToolResult}
    (failed : latestFailedPipeline s.messages = some pipeline)
    (planned : initialPlan env s now reply = some plan) :
    plan.modelValidate = some plan ↔
      (∀ draft ∈ draftWorkItems env pipeline, ∀ text ∈ draft.texts, StableText text) ∧
        ∀ name,
          reply = .failed name →
          (∃ draft ∈ draftWorkItems env pipeline,
            (markExhausted env s draft).status = .pending) →
          name.length ≤ 83 := by
  have noCode : ∀ {author : PlanAuthor} {built : RepairPlan},
      buildInitialRepairPlan env s now author = some built →
      (built.modelValidate = some built ↔
        ∀ draft ∈ draftWorkItems env pipeline, ∀ text ∈ draft.texts, StableText text) := by
    intro author built made
    obtain ⟨-, -, -, -, -, -, -, -, -, code, -⟩ := buildInitialRepairPlan_cases made
    have result := first_plan_readback failed made ""
    rw [show { built with plannerErrorCode := "" } = built by rw [← code]] at result
    rw [result]
    exact and_iff_right (by decide)
  obtain ⟨fallback, made, cases_⟩ := initialPlan_cases planned
  rw [← fallback_pending_iff failed made]
  rcases cases_ with ⟨idle, rfl⟩ | ⟨author, answered, built⟩ | ⟨pending, name, rfl, origin⟩
  · rw [noCode made]
    exact (and_iff_left (fun _ _ busy => absurd idle busy)).symm
  · rw [noCode built]
    exact (and_iff_left (fun name same _ => absurd same (answered name))).symm
  · rw [first_plan_readback failed made, and_comm]
    apply and_congr_right
    intro _
    have length : ("planner_fallback_" ++ name).length = 17 + name.length := by
      rw [String.length_append]
      rfl
    rw [length]
    rcases origin with rfl | ⟨answered, short⟩
    · constructor
      · intro bound other same _
        cases same
        omega
      · intro bound
        have := bound name rfl pending
        omega
    · constructor
      · intro _ other same _
        exact absurd same (answered other)
      · intro _
        omega

theorem repairPlanRequired_cases
    {env : PlanEnv}
    (required : repairPlanRequired env s = true) :
    (∃ pipeline, latestFailedPipeline s.messages = some pipeline) ∧
      ∀ plan, latestRepairPlan s = some plan → planMatchesLatestPipeline env s plan = false := by
  unfold repairPlanRequired at required
  split at required
  · rename_i pipeline _ failed
    refine ⟨⟨pipeline, failed⟩, ?_⟩
    intro plan latest
    rw [latest] at required
    split at required
    · cases required
    · simpa using required
  · cases required

variable {written : RepairPlan}

theorem latest_addPlan_iff
    (new : latestRepairPlan s ≠ some written) :
    latestRepairPlan (s.addPlan written) = some written ↔
      written.modelValidate = some written := by
  rw [latestRepairPlan_addPlan]
  cases written.modelValidate with
  | none =>
      simpa using new
  | some read =>
      simp

theorem first_readback_iff
    {env : PlanEnv}
    {pipeline : ToolResult}
    (required : repairPlanRequired env s = true)
    (failed : latestFailedPipeline s.messages = some pipeline)
    (planned : initialPlan env s now reply = some written) :
    ReadBack s written ↔ FirstPlanReadable env s reply pipeline := by
  have read := initialPlan_readback failed planned
  obtain ⟨author, built, code, made, rfl⟩ := initialPlan_built planned
  obtain ⟨latest, -, sameFailed, -, -, -, lineage, version, cursor, -, -⟩ :=
    buildInitialRepairPlan_cases made
  obtain rfl : pipeline = latest := Option.some.inj (failed.symm.trans sameFailed)
  have new : latestRepairPlan s ≠ some { built with plannerErrorCode := code } := by
    intro same
    have stale := (repairPlanRequired_cases required).2 _ same
    have current := buildInitialRepairPlan_matches made
    have unaffected :
        planMatchesLatestPipeline env s { built with plannerErrorCode := code } =
          planMatchesLatestPipeline env s built := rfl
    rw [unaffected, current] at stale
    cases stale
  have continues :
      (∀ previous, latestOfLineage s built.lineageId = some previous →
          1 = previous.version + 1) ↔
        ∀ other ∈ readablePlans s, other.lineageId ≠ built.lineageId :=
    first_version_iff
  rw [← latest_addPlan_iff new] at read
  constructor
  · rintro ⟨latest, next, newer⟩
    obtain ⟨stable, fits⟩ := read.mp latest
    refine ⟨stable, ?_, ?_, fits⟩
    · rw [← lineage]
      exact continues.mp (version ▸ next)
    · intro previous stored
      rw [← cursor]
      exact newer previous stored
  · rintro ⟨stable, fresh, newer, fits⟩
    refine ⟨read.mpr ⟨stable, fits⟩, ?_, ?_⟩
    · rw [← lineage] at fresh
      intro previous last
      change built.version = previous.version + 1
      rw [version]
      exact continues.mpr fresh previous last
    · intro previous stored
      change previous.evidenceCursor < built.evidenceCursor
      rw [cursor]
      exact newer previous stored

theorem revision_readback_iff
    {env : PlanEnv}
    {plan written : RepairPlan}
    (latest : latestRepairPlan s = some plan)
    (built : buildRevisedRepairPlan env s now plan request = some written) :
    ReadBack s written ↔
      ∀ proposed,
        request.proposedPaths.mapM normalizeRepairPath = some proposed →
        RevisionReadable plan request proposed := by
  obtain ⟨-, -, proposed, -, -, -, -, newer, normalised, fields, same, -⟩ :=
    buildRevisedRepairPlan_cases built
  have version : written.version = plan.version + 1 := by rw [same]
  have lineage : written.lineageId = plan.lineageId := by rw [same]
  have cursor : written.evidenceCursor = request.sequence := by rw [same]
  have items : written.workItems = plan.workItems.map (reviseItem request proposed.eraseDups) := by
    rw [same]
  have new : latestRepairPlan s ≠ some written := by
    intro again
    rw [latest] at again
    cases again
    omega
  have proposedNormal : ∀ path ∈ proposed.eraseDups, safePath path = some path := by
    intro path member
    have pairs := FallibleProgram.mapM_eq_some_iff.mp normalised
    obtain ⟨raw, safe⟩ := exists_source pairs (List.mem_eraseDups.mp member)
    exact safePath_idempotent safe
  have readItems : ∀ item ∈ plan.workItems, ∃ draft : RepairWorkItem,
      draft.modelValidate = some item := by
    intro item member
    obtain ⟨raw, -, read⟩ := List.mem_filterMap.mp (mem_readablePlans_of_latest latest)
    obtain ⟨pairs, -, -⟩ := RepairPlan.modelValidate_cases read
    exact exists_source pairs member
  have readback :
      latestRepairPlan (s.addPlan written) = some written ↔
        RevisionReadable plan request proposed := by
    rw [latest_addPlan_iff new, RepairPlan.modelValidate_self, items]
    simp only [fields, true_and, List.mem_map, forall_exists_index, and_imp,
      forall_apply_eq_imp_iff₂]
    apply forall₂_congr
    intro item member
    obtain ⟨draft, accepted⟩ := readItems item member
    exact revised_item_readback proposedNormal accepted
  constructor
  · rintro ⟨read, -, -⟩ other sameOther
    obtain rfl : proposed = other := Option.some.inj (normalised.symm.trans sameOther)
    exact readback.mp read
  · intro readable
    refine ⟨readback.mpr (readable proposed normalised), ?_, ?_⟩
    · intro previous last
      rw [lineage, latestOfLineage_latest latest] at last
      cases last
      exact version
    · intro previous last
      rw [latest] at last
      cases last
      rw [cursor]
      exact newer

/--
The plan that the planner appends is the one that is read back, with the next
version of its lineage and newer evidence, exactly under `PlannerReadable`.
-/
theorem planner_readback_iff
    {env : PlanEnv}
    {s : AgentState}
    {now : String}
    {reply : PlannerReply}
    {written : RepairPlan}
    (appended : repairPlannerNode env s now reply = some written) :
    ReadBack s written ↔ PlannerReadable env s reply := by
  unfold repairPlannerNode at appended
  unfold PlannerReadable
  split at appended
  · rename_i required
    obtain ⟨⟨pipeline, failed⟩, -⟩ := repairPlanRequired_cases required
    rw [first_readback_iff required failed appended]
    simp [required, failed]
  · rename_i idle
    split at appended
    · cases appended
    · rename_i plan current
      obtain ⟨latest, -⟩ := Option.filter_eq_some_iff.mp current
      split at appended
      · cases appended
      · rename_i request found
        rw [revision_readback_iff latest appended]
        constructor
        · intro readable
          refine ⟨fun required => absurd required idle, ?_⟩
          intro _ other wanted proposed sameLatest sameFound normalised
          obtain rfl : plan = other := Option.some.inj (latest.symm.trans sameLatest)
          obtain rfl : request = wanted := Option.some.inj (found.symm.trans sameFound)
          exact readable proposed normalised
        · rintro ⟨-, readable⟩ proposed normalised
          exact readable (by simpa using idle) plan request proposed latest found normalised

namespace ThreeItems

/-- The agent has only read the failed Pipeline. -/
def fetched : List RepairOp :=
  [.converse (exchange "f" .fetchPipelineLogs "" pipeline)]

/-- More paths than a work item may have. -/
def manyPaths : List String :=
  (List.range 31).map fun n => String.ofList ['a', Char.ofNat (192 + n)]

/-- A validated request of the agent to repair all these files for the first item. -/
def crowded : List RepairOp :=
  planning ++
    [.converse (exchange "r" .requestRepairReplan "x"
      { status := .success
        planId := String.ofList ('1' :: List.replicate 63 'a')
        lineageId := String.ofList (List.replicate 64 'e')
        expectedVersion := 1
        workItemId := "x"
        reason := "r"
        proposedPaths := manyPaths })]

end ThreeItems

open ThreeItems in
theorem planner_readback_first_plan :
    ∃ written,
      repairPlannerNode env (after fetched) "now" (.failed "e") = some written ∧
        ReadBack (after fetched) written := by
  have evaluated :
      ((repairPlannerNode env (after fetched) "now" (.failed "e")).isSome &&
        repairPlanRequired env (after fetched) &&
        decide (latestFailedPipeline (after fetched).messages = some pipeline) &&
        decide (∀ draft ∈ draftWorkItems env pipeline,
          ∀ text ∈ draft.texts, StableText text)) = true := by
    decide +kernel
  simp only [Bool.and_eq_true, decide_eq_true_eq, Option.isSome_iff_exists] at evaluated
  obtain ⟨⟨⟨⟨written, appended⟩, required⟩, failed⟩, stable⟩ := evaluated
  refine ⟨written, appended, (planner_readback_iff appended).mpr ⟨?_, ?_⟩⟩
  · intro _ latest found
    obtain rfl : pipeline = latest := Option.some.inj (failed.symm.trans found)
    refine ⟨stable, ?_, ?_, ?_⟩
    · intro other member
      cases member
    · intro previous found
      cases found
    · intro name same _
      cases same
      decide
  · intro idle
    rw [required] at idle
    cases idle

open ThreeItems in
/--
A validated request brings thirty-one paths: the planner appends the revision,
the reader rejects it, and the latest plan is still the first one.
-/
theorem revision_not_read_back :
    ∃ s reply written,
      RepairReachable env s ∧ repairPlannerNode env s "now" reply = some written ∧
        ¬ReadBack s written := by
  have evaluated :
      (repairPlannerNode env (after crowded) "now" (.failed "e")).any (fun written =>
        decide (latestRepairPlan ((after crowded).addPlan written) ≠ some written)) = true := by
    decide +kernel
  simp only [Option.any_eq_true, decide_eq_true_eq] at evaluated
  obtain ⟨written, appended, unread⟩ := evaluated
  refine ⟨after crowded, .failed "e", written, after_reachable crowded, appended, ?_⟩
  intro readBack
  exact unread readBack.latest

end MrAgent
