import MrAgent.PlanLineage

namespace MrAgent

open TransitionSystem

/-!
# Plan scheduling and its dead ends

Which item is active follows from everything the history has completed, while
the commit decision looks at the latest verification alone, which need not name
every item unless a single one is left: a model that finishes two items at once
can leave a plan that can never be committed.
-/

/-- What happens to one plan: the conversation, revisions and verifications. -/
inductive PlanOp where
  | converse (more : List Message)
  | revise (now : String) (request : ReplanRequest)
  | verify (modelCandidates : List String) (now : String) (reply : VerifierReply)

/-- One step of a run for one plan. -/
def planStep (env : PlanEnv) (s : AgentState) : PlanOp → AgentState
  | .converse more => s.addMessages more
  | .revise now request =>
    match (latestRepairPlan s).bind fun plan => buildRevisedRepairPlan env s now plan request with
    | some revised => s.addPlan revised
    | none => s
  | .verify modelCandidates now reply =>
    match repairVerifierNode env modelCandidates s now reply with
    | some verification => s.addVerification verification
    | none => s

/-- The ids an answer of the verifying model reports as covered. -/
def VerifierReply.coverage : VerifierReply → List String
  | .failed _ => []
  | .returned _ value _ _ => (value.map (·.coveredWorkItemIds)).getD []

/-- An answer that would finish the plan names every pending item of it. -/
def Accumulates (env : PlanEnv) (s : AgentState) (reply : VerifierReply) : Prop :=
  ∀ plan,
    latestRepairPlan s = some plan →
    (activeWorkItem env s).isSome →
    (∀ id ∈ plan.executableIds, id ∈ completedWorkItemIds s plan ∨ id ∈ reply.coverage) →
    ∀ id ∈ plan.executableIds, id ∈ reply.coverage

/-- The steps of a run in which every verification accumulates the earlier ones. -/
def accumulating (env : PlanEnv) (s : AgentState) : PlanOp → Prop
  | .verify _ _ reply => Accumulates env s reply
  | _ => True

/-- A plan that has just been written: its lineage has no other plan and no verification. -/
structure FreshPlan (s : AgentState) (plan : RepairPlan) : Prop where
  latest : latestRepairPlan s = some plan
  alone : ∀ other ∈ readablePlans s, other.lineageId = plan.lineageId → other = plan
  unverified : ∀ verification ∈ readableVerifications s,
    verification.lineageId ≠ plan.lineageId

/--
A plan is not stuck: an item is active, or the latest verification covers every
pending item and the commit decision follows the native evidence for its Diff.
-/
def NotStuck (env : PlanEnv) (s : AgentState) (plan : RepairPlan) : Prop :=
  (activeWorkItem env s).isSome ∨
    ∃ verification,
      latestRepairVerification s = some verification ∧
        (∀ id ∈ plan.executableIds, id ∈ verification.coveredWorkItemIds) ∧
        ∀ native : NativeCommitDecision,
          native.allowed = true →
          native.validatedBaseSha = plan.baselineSha →
          native.validatedDiffDigest = verification.diffDigest →
          (repairPlanCommitDecision env s native).allowed = true

/-- Every current plan without a blocked item is not stuck. -/
def NoDeadEnd (env : PlanEnv) (s : AgentState) : Prop :=
  ∀ plan,
    latestRepairPlan s = some plan →
    planMatchesLatestPipeline env s plan = true →
    blockedWorkItemIds s plan = [] →
    NotStuck env s plan

/-! ## What the verifier node can append -/

variable {plan : RepairPlan} {item : RepairWorkItem} {s : AgentState}

theorem activeWorkItem_eq_some
    {env : PlanEnv}
    (latest : latestRepairPlan s = some plan)
    (active : activeWorkItem env s = some item) :
    planMatchesLatestPipeline env s plan = true ∧ unfinishedItem s plan = some item := by
  unfold activeWorkItem at active
  rw [latest] at active
  dsimp only at active
  split at active
  · exact ⟨‹_›, active⟩
  · cases active

theorem unfinishedItem_eq_some
    (unfinished : unfinishedItem s plan = some item) :
    item.workItemId ∈ plan.executableIds ∧ item.workItemId ∈ plan.ids ∧
      item.workItemId ∉ completedWorkItemIds s plan := by
  have member := List.mem_of_find?_eq_some unfinished
  have chosen := List.find?_some unfinished
  simp only [Bool.and_eq_true, decide_eq_true_eq] at chosen
  refine ⟨?_, List.mem_map_of_mem member, chosen.2⟩
  exact List.mem_map_of_mem (List.mem_filter.mpr ⟨member, by simpa using chosen.1⟩)

theorem unfinishedItem_eq_none :
    unfinishedItem s plan = none ↔ ∀ id ∈ plan.executableIds, id ∈ completedWorkItemIds s plan := by
  unfold unfinishedItem RepairPlan.executableIds
  simp only [List.find?_eq_none, Bool.and_eq_true, decide_eq_true_eq, List.mem_map, List.mem_filter,
    not_and, not_not, forall_exists_index, and_imp]
  constructor
  · rintro finished id item member pending rfl
    exact finished item member pending
  · intro finished item member pending
    exact finished _ item member pending rfl

theorem active_mem_required
    {env : PlanEnv}
    (latest : latestRepairPlan s = some plan)
    (active : activeWorkItem env s = some item) :
    item.workItemId ∈ requiredVerificationWorkItemIds env s := by
  obtain ⟨-, unfinished⟩ := activeWorkItem_eq_some latest active
  obtain ⟨executable, -, -⟩ := unfinishedItem_eq_some unfinished
  unfold requiredVerificationWorkItemIds
  rw [latest, active]
  dsimp only
  split
  · exact executable
  · exact List.mem_singleton_self _

variable {reply : VerifierReply}

theorem judgeReply_pass
    {candidates : List String}
    {evidence : NativeRepairEvidence}
    {required : List String}
    {diffDigest : String}
    (passed : (judgeReply s candidates plan evidence required diffDigest reply).verdict = .pass) :
    ∃ model value,
      reply.coverage = value.coveredWorkItemIds ∧
        judgeReply s candidates plan evidence required diffDigest reply =
          judgeOutput plan evidence required diffDigest model value := by
  cases reply with
  | failed errorName =>
      cases passed
  | returned model value terminalError validationError =>
      unfold judgeReply at passed ⊢
      dsimp only at passed ⊢
      split at passed
      · cases passed
      · rename_i independent
        rw [if_neg independent]
        cases value with
        | none =>
            cases passed
        | some value =>
            dsimp only at passed ⊢
            split at passed
            · cases passed
            · rename_i configured
              rw [if_neg configured]
              exact ⟨model, value, rfl, rfl⟩

theorem judge_pass
    {env : PlanEnv}
    {modelCandidates : List String}
    (passed : (judge env modelCandidates s plan reply).verdict = .pass) :
    ∃ evidence diffDigest model value,
      reply.coverage = value.coveredWorkItemIds ∧
        judge env modelCandidates s plan reply =
          judgeOutput plan evidence (requiredVerificationWorkItemIds env s) diffDigest model
            value := by
  unfold judge at passed ⊢
  dsimp only at passed ⊢
  split at passed
  · cases passed
  · split at passed
    · cases passed
    · split at passed
      · cases passed
      · split at passed
        · cases passed
        · rename_i allowed base _ _ _ route
          rw [if_neg allowed, if_neg base, if_neg route]
          obtain ⟨model, value, covers, same⟩ := judgeReply_pass passed
          exact ⟨_, _, model, value, covers, same⟩

theorem judgeOutput_pass
    {evidence : NativeRepairEvidence}
    {required : List String}
    {diffDigest model : String}
    {value : VerifierOutput}
    (passed : (judgeOutput plan evidence required diffDigest model value).verdict = .pass) :
    passValid plan evidence required value = true := by
  unfold judgeOutput at passed
  dsimp only at passed
  split at passed
  · assumption
  · split at passed
    · cases passed
    · contradiction

theorem repairVerifierNode_cases
    {env : PlanEnv}
    {modelCandidates : List String}
    {now : String}
    {verification : RepairVerification}
    (appended : repairVerifierNode env modelCandidates s now reply = some verification) :
    ∃ plan item,
      latestRepairPlan s = some plan ∧ activeWorkItem env s = some item ∧
        verification.fieldsValid = true ∧ verification.key = plan.key ∧
        verification.workItemId = item.workItemId ∧
        (verification.verdict = .block → verification.coveredWorkItemIds = [item.workItemId]) ∧
        (verification.verdict = .pass →
          verification.passes = true ∧
            item.workItemId ∈ verification.coveredWorkItemIds ∧
            ∀ id, id ∈ verification.coveredWorkItemIds ↔ id ∈ reply.coverage ∧ id ∈ plan.ids) := by
  unfold repairVerifierNode at appended
  split at appended
  · rename_i plan item latest active
    unfold verificationEvent at appended
    obtain ⟨fields, same⟩ := RepairVerification.modelValidate_eq_some.mp appended
    refine ⟨plan, item, latest, active, same ▸ fields, by rw [same]; rfl, by rw [same], ?_, ?_⟩
    · intro block
      rw [same] at block ⊢
      exact if_pos block
    · intro pass
      have verdict : (judge env modelCandidates s plan reply).verdict = .pass := by
        rw [same] at pass
        exact pass
      have covered :
          verification.coveredWorkItemIds =
            (judge env modelCandidates s plan reply).coveredWorkItemIds := by
        rw [same]
        exact if_neg (by simp [verdict])
      obtain ⟨evidence, diffDigest, model, value, answer, judged⟩ := judge_pass verdict
      have valid := judgeOutput_pass (judged ▸ verdict)
      unfold passValid at valid
      simp only [Bool.and_eq_true, decide_eq_true_eq, List.all_eq_true] at valid
      obtain ⟨⟨⟨⟨⟨⟨-, causal⟩, inScope⟩, sufficient⟩, requested⟩, -⟩, -⟩ := valid
      refine ⟨?_, ?_, ?_⟩
      · rw [same, RepairVerification.passes]
        dsimp only
        rw [verdict, judged]
        simp [judgeOutput, causal, inScope, sufficient]
      · rw [covered, judged]
        exact requested _ (active_mem_required latest active)
      · intro id
        rw [covered, judged, answer]
        simp [judgeOutput, safeCovered]
  · cases appended

/-! ## One lineage from its first plan on -/

/-- The latest verification lets the plan be committed once its Diff is the validated one. -/
def FinalVerification (s : AgentState) (plan : RepairPlan) : Prop :=
  ∃ verification,
    latestRepairVerification s = some verification ∧
      verificationMatchesPlan plan verification = true ∧ verification.passes = true ∧
      ∀ id ∈ plan.executableIds, id ∈ verification.coveredWorkItemIds

/--
The history of a lineage whose plans all have one schedule, and in which every
verification names one of these plans.
-/
structure LineageHistory
    (lineage : String)
    (schedule : List (String × WorkItemStatus))
    (s : AgentState)
    (plan : RepairPlan) : Prop where
  latest : latestRepairPlan s = some plan
  own : plan.lineageId = lineage
  uniform : ∀ other ∈ readablePlans s, other.lineageId = lineage → other.schedule = schedule
  bound : ∀ verification ∈ readableVerifications s, verification.lineageId = lineage →
    ∃ source ∈ readablePlans s, source.lineageId = lineage ∧ source.key = verification.key

namespace LineageHistory

variable {env : PlanEnv}
  {lineage : String}
  {schedule : List (String × WorkItemStatus)}
  {s : AgentState}
  {plan : RepairPlan}

theorem readable (inv : LineageHistory lineage schedule s plan) : plan ∈ readablePlans s :=
  mem_readablePlans_of_latest inv.latest

theorem ids_eq
    (inv : LineageHistory lineage schedule s plan)
    {other : RepairPlan}
    (member : other ∈ readablePlans s)
    (same : other.lineageId = lineage) :
    other.ids = plan.ids := by
  rw [RepairPlan.ids_eq_schedule, RepairPlan.ids_eq_schedule, inv.uniform other member same,
    inv.uniform plan inv.readable inv.own]

theorem historical
    (inv : LineageHistory lineage schedule s plan)
    {source : RepairPlan}
    (member : source ∈ readablePlans s)
    (same : source.lineageId = lineage) :
    ∃ found, historicalPlan s plan source.key = some found ∧ found.key = source.key ∧
      found.ids = plan.ids := by
  rw [historicalPlan_eq inv.readable, inv.own]
  have present :
      (((readablePlans s).filter (·.lineageId = lineage)).reverse.find?
        (·.key = source.key)).isSome := by
    rw [List.find?_isSome]
    exact ⟨source, by simpa using ⟨member, same⟩, by simp⟩
  obtain ⟨found, lookup⟩ := Option.isSome_iff_exists.mp present
  have inLineage := List.mem_filter.mp (List.mem_reverse.mp (List.mem_of_find?_eq_some lookup))
  refine ⟨found, lookup, by simpa using List.find?_some lookup, ?_⟩
  exact inv.ids_eq inLineage.1 (by simpa using inLineage.2)

theorem valid_of_matches
    (inv : LineageHistory lineage schedule s plan)
    {verification : RepairVerification}
    (stored : verification ∈ readableVerifications s)
    (fits : verificationMatchesPlan plan verification = true) :
    verification ∈ validLineageVerifications s plan := by
  have keys : verification.key = plan.key := by
    simp only [verificationMatchesPlan, Bool.and_eq_true, decide_eq_true_eq] at fits
    exact fits.1.1.1.2
  obtain ⟨found, lookup, sameKey, sameIds⟩ := inv.historical inv.readable inv.own
  refine mem_validLineageVerifications.mpr ⟨stored, found, keys ▸ lookup, ?_⟩
  rw [verificationMatchesPlan_congr sameKey sameIds]
  exact fits

theorem valid_of_valid_revised
    (inv : LineageHistory lineage schedule s plan)
    {raw revised : RepairPlan}
    (accepted : raw.modelValidate = some revised)
    (same : revised.lineageId = plan.lineageId)
    (ids : revised.ids = plan.ids)
    {verification : RepairVerification}
    (valid : verification ∈ validLineageVerifications (s.addPlan raw) revised) :
    verification ∈ validLineageVerifications s plan := by
  obtain ⟨stored, source, found, fits⟩ := mem_validLineageVerifications.mp valid
  rw [historicalPlan_addPlan inv.readable accepted same] at found
  split at found
  · rename_i taken
    cases found
    have inLineage : verification.lineageId = lineage := by
      rw [← inv.own, ← same]
      exact (congrArg (fun key => key.2.1) taken).symm
    obtain ⟨named, member, sameLineage, sameKey⟩ := inv.bound verification stored inLineage
    obtain ⟨earlier, lookup, earlierKey, earlierIds⟩ := inv.historical member sameLineage
    refine mem_validLineageVerifications.mpr ⟨stored, earlier, sameKey ▸ lookup, ?_⟩
    rw [verificationMatchesPlan_congr (earlierKey.trans (sameKey.trans taken.symm))
      (earlierIds.trans ids.symm)]
    exact fits
  · exact mem_validLineageVerifications.mpr ⟨stored, source, found, fits⟩

end LineageHistory

theorem validLineageVerifications_congr
    {before after : AgentState}
    (plans : readablePlans after = readablePlans before)
    (verifications : readableVerifications after = readableVerifications before)
    (plan : RepairPlan) :
    validLineageVerifications after plan = validLineageVerifications before plan := by
  have sources : lineagePlans after plan = lineagePlans before plan := by
    unfold lineagePlans
    rw [← readablePlans, ← readablePlans, plans]
  unfold validLineageVerifications historicalPlan
  rw [sources, ← readableVerifications, ← readableVerifications, verifications]

/-- The verification that finished the plan, if any, covers all of it. -/
structure Scheduled
    (lineage : String)
    (schedule : List (String × WorkItemStatus))
    (s : AgentState)
    (plan : RepairPlan) : Prop extends LineageHistory lineage schedule s plan where
  final : blockedWorkItemIds s plan = [] → unfinishedItem s plan = none → FinalVerification s plan

theorem Scheduled.congr
    {lineage : String}
    {schedule : List (String × WorkItemStatus)}
    {before after : AgentState}
    (inv : Scheduled lineage schedule before plan)
    (plans : readablePlans after = readablePlans before)
    (verifications : readableVerifications after = readableVerifications before) :
    Scheduled lineage schedule after plan := by
  have valid := validLineageVerifications_congr plans verifications plan
  have completed : completedWorkItemIds after plan = completedWorkItemIds before plan := by
    rw [completedWorkItemIds, completedWorkItemIds, valid]
  have history : LineageHistory lineage schedule after plan := by
    refine ⟨?_, inv.own, ?_, ?_⟩
    · rw [latestRepairPlan_eq, plans, ← latestRepairPlan_eq]
      exact inv.latest
    · rw [plans]
      exact inv.uniform
    · rw [plans, verifications]
      exact inv.bound
  refine ⟨history, ?_⟩
  intro unblocked finished
  have result := inv.final (by rw [← unblocked, blockedWorkItemIds, blockedWorkItemIds, valid])
    (by rw [← finished, unfinishedItem, unfinishedItem, completed])
  unfold FinalVerification at result ⊢
  rw [latestRepairVerification_eq, verifications, ← latestRepairVerification_eq]
  exact result

theorem blocked_of_block
    {verification : RepairVerification}
    (valid : verification ∈ validLineageVerifications s plan)
    (block : verification.verdict = .block)
    (named : verification.workItemId ∈ plan.ids) :
    blockedWorkItemIds s plan ≠ [] := by
  intro unblocked
  have member : verification.workItemId ∈ blockedWorkItemIds s plan :=
    mem_blockedWorkItemIds.mpr (.inr ⟨named, verification, valid, block, rfl⟩)
  rw [unblocked] at member
  cases member

theorem completed_of_addVerification
    {next : RepairVerification}
    {id : String}
    (completed : id ∈ completedWorkItemIds (s.addVerification next) plan) :
    id ∈ completedWorkItemIds s plan ∨ id ∈ completedBy plan next := by
  rcases mem_completedWorkItemIds.mp completed with settled | ⟨verification, valid, closes⟩
  · exact .inl (mem_completedWorkItemIds.mpr (.inl settled))
  · obtain ⟨stored, source, found, fits⟩ := mem_validLineageVerifications.mp valid
    rw [readableVerifications_addVerification] at stored
    rcases List.mem_append.mp stored with old | new
    · refine .inl (mem_completedWorkItemIds.mpr (.inr ⟨verification, ?_, closes⟩))
      exact mem_validLineageVerifications.mpr ⟨old, source, found, fits⟩
    · obtain ⟨-, rfl⟩ := RepairVerification.modelValidate_eq_some.mp (Option.mem_toList.mp new)
      exact .inr closes

namespace Scheduled

variable {env : PlanEnv}
  {lineage : String}
  {schedule : List (String × WorkItemStatus)}
  {s : AgentState}
  {plan : RepairPlan}

theorem verified
    (inv : Scheduled lineage schedule s plan)
    {modelCandidates : List String}
    {now : String}
    {reply : VerifierReply}
    {verification : RepairVerification}
    (appended : repairVerifierNode env modelCandidates s now reply = some verification)
    (accumulates : Accumulates env s reply) :
    Scheduled lineage schedule (s.addVerification verification) plan := by
  obtain ⟨current, item, latest, active, fields, keys, named, onBlock, onPass⟩ :=
    repairVerifierNode_cases appended
  obtain rfl : plan = current := Option.some.inj (inv.latest.symm.trans latest)
  obtain ⟨-, unfinished⟩ := activeWorkItem_eq_some latest active
  obtain ⟨executable, present, unfinishedId⟩ := unfinishedItem_eq_some unfinished
  have stored : readableVerifications (s.addVerification verification) =
      readableVerifications s ++ [verification] := by
    rw [readableVerifications_addVerification,
      RepairVerification.modelValidate_eq_some.mpr ⟨fields, rfl⟩]
    rfl
  have newest : verification ∈ readableVerifications (s.addVerification verification) := by
    rw [stored]
    exact List.mem_append_right _ (List.mem_singleton_self _)
  have history : LineageHistory lineage schedule (s.addVerification verification) plan := by
    refine ⟨inv.latest, inv.own, inv.uniform, ?_⟩
    intro other member inLineage
    rw [stored] at member
    rcases List.mem_append.mp member with old | new
    · exact inv.bound other old inLineage
    · obtain rfl := List.mem_singleton.mp new
      exact ⟨plan, inv.readable, inv.own, keys.symm⟩
  refine ⟨history, ?_⟩
  intro unblocked finished
  have done := unfinishedItem_eq_none.mp finished
  cases verdict : verification.verdict with
  | block =>
      exfalso
      apply blocked_of_block (history.valid_of_matches newest _) verdict (named ▸ present) unblocked
      simp [verificationMatchesPlan, onBlock verdict, keys, named, present]
  | replan =>
      -- Nothing is completed, so the active item is still unfinished.
      exfalso
      rcases completed_of_addVerification (done _ executable) with before | closed
      · exact unfinishedId before
      · simp [completedBy, RepairVerification.passes, verdict] at closed
  | pass =>
      obtain ⟨passes, coversActive, covers⟩ := onPass verdict
      have closing :
          ∀ id ∈ plan.executableIds,
            id ∈ completedWorkItemIds s plan ∨ id ∈ reply.coverage := by
        intro id pending
        rcases completed_of_addVerification (done id pending) with before | closed
        · exact .inl before
        · rw [completedBy, if_pos passes] at closed
          exact .inr ((covers id).mp (List.mem_of_mem_filter closed)).1
      have total := accumulates plan latest (by rw [active]; rfl) closing
      refine ⟨verification, ?_, ?_, passes, ?_⟩
      · rw [latestRepairVerification_eq, stored, List.getLast?_append]
        rfl
      · have nonempty : verification.coveredWorkItemIds ≠ [] := List.ne_nil_of_mem coversActive
        have inside : verification.coveredWorkItemIds.all (· ∈ plan.ids) = true := by
          simp only [List.all_eq_true, decide_eq_true_eq]
          intro id covered
          exact ((covers id).mp covered).2
        simp [verificationMatchesPlan, nonempty, keys, named, present, coversActive] at inside ⊢
        exact inside
      · intro id pending
        refine (covers id).mpr ⟨total id pending, ?_⟩
        obtain ⟨item, member, rfl⟩ := List.mem_map.mp pending
        exact List.mem_map_of_mem (List.mem_of_mem_filter member)

theorem revised
    (inv : Scheduled lineage schedule s plan)
    {now : String}
    {request : ReplanRequest}
    {raw : RepairPlan}
    (built : buildRevisedRepairPlan env s now plan request = some raw) :
    ∃ current, Scheduled lineage schedule (s.addPlan raw) current := by
  cases accepted : raw.modelValidate with
  | none =>
      refine ⟨plan, inv.congr ?_ rfl⟩
      rw [readablePlans_addPlan, accepted, Option.toList_none, List.append_nil]
  | some revised =>
      obtain ⟨-, item, proposed, -, -, active, -, -, -, -, same, -⟩ :=
        buildRevisedRepairPlan_cases built
      obtain ⟨-, unfinished⟩ := activeWorkItem_eq_some inv.latest active
      obtain ⟨executable, -, unfinishedId⟩ := unfinishedItem_eq_some unfinished
      have schedules : revised.schedule = plan.schedule := by
        rw [RepairPlan.schedule_of_modelValidate accepted, schedule_of_revised built]
      have ids : revised.ids = plan.ids := by
        rw [RepairPlan.ids_eq_schedule, RepairPlan.ids_eq_schedule, schedules]
      have sameLineage : revised.lineageId = plan.lineageId := by
        obtain ⟨-, sameRead, -⟩ := RepairPlan.modelValidate_cases accepted
        rw [sameRead, same]
      have stored : readablePlans (s.addPlan raw) = readablePlans s ++ [revised] := by
        rw [readablePlans_addPlan, accepted]
        rfl
      refine ⟨revised, ⟨?_, sameLineage.trans inv.own, ?_, ?_⟩, ?_⟩
      · rw [latestRepairPlan_addPlan, accepted]
        rfl
      · intro other member inLineage
        rw [stored] at member
        rcases List.mem_append.mp member with old | new
        · exact inv.uniform other old inLineage
        · obtain rfl := List.mem_singleton.mp new
          rw [schedules]
          exact inv.uniform plan inv.readable inv.own
      · intro verification member inLineage
        obtain ⟨source, readable, rest⟩ := inv.bound verification member inLineage
        refine ⟨source, ?_, rest⟩
        rw [stored]
        exact List.mem_append_left _ readable
      · intro _ finished
        exfalso
        have pending : item.workItemId ∈ revised.executableIds := by
          rw [RepairPlan.executableIds_eq_schedule, schedules,
            ← RepairPlan.executableIds_eq_schedule]
          exact executable
        apply unfinishedId
        refine completedWorkItemIds_mono schedules.symm ?_
          (unfinishedItem_eq_none.mp finished _ pending)
        intro verification valid
        exact inv.valid_of_valid_revised accepted sameLineage ids valid

theorem step
    (inv : Scheduled lineage schedule s plan)
    (op : PlanOp)
    (allowed : accumulating env s op) :
    ∃ current, Scheduled lineage schedule (planStep env s op) current := by
  cases op with
  | converse more =>
      exact ⟨plan, inv.congr rfl rfl⟩
  | revise now request =>
      simp only [planStep, inv.latest, Option.bind_some]
      split
      · exact inv.revised ‹_›
      · exact ⟨plan, inv⟩
  | verify modelCandidates now reply =>
      unfold planStep
      dsimp only
      split
      · exact ⟨plan, inv.verified ‹_› allowed⟩
      · exact ⟨plan, inv⟩

theorem start
    (fresh : FreshPlan s plan)
    (pending : plan.executableIds ≠ []) :
    Scheduled plan.lineageId plan.schedule s plan := by
  have readable := mem_readablePlans_of_latest fresh.latest
  refine ⟨⟨fresh.latest, rfl, ?_, ?_⟩, ?_⟩
  · intro other member inLineage
    rw [fresh.alone other member inLineage]
  · intro verification member inLineage
    exact absurd inLineage (fresh.unverified verification member)
  · intro _ finished
    exfalso
    obtain ⟨id, member⟩ := List.exists_mem_of_ne_nil _ pending
    have unverified : validLineageVerifications s plan = [] := by
      rw [List.eq_nil_iff_forall_not_mem]
      intro verification valid
      obtain ⟨stored, source, found, -⟩ := mem_validLineageVerifications.mp valid
      apply fresh.unverified verification stored
      have sourceKey : source.key = verification.key := by
        simpa using List.find?_some found
      rw [historicalPlan_eq readable] at found
      have inLineage := List.mem_filter.mp (List.mem_reverse.mp (List.mem_of_find?_eq_some found))
      rw [← show source.lineageId = plan.lineageId by simpa using inLineage.2]
      exact (congrArg (fun key => key.2.1) sourceKey).symm
    rcases mem_completedWorkItemIds.mp (unfinishedItem_eq_none.mp finished id member) with
      ⟨status, settled, scheduled⟩ | ⟨verification, valid, -⟩
    · -- The identities of a readable plan are unique, so a pending item has no other status.
      obtain ⟨raw, -, accepted⟩ := List.mem_filterMap.mp readable
      obtain ⟨-, -, fields⟩ := RepairPlan.modelValidate_cases accepted
      have unique : plan.ids.Nodup := by
        simp only [RepairPlan.fieldsValid, Bool.and_eq_true, decide_eq_true_eq] at fields
        exact fields.2
      rw [RepairPlan.executableIds_eq_schedule] at member
      obtain ⟨entry, chosen, sameId⟩ := List.mem_map.mp member
      obtain ⟨inside, isPending⟩ := List.mem_filter.mp chosen
      rw [RepairPlan.ids_eq_schedule] at unique
      have sameEntry : entry = (id, status) :=
        List.inj_on_of_nodup_map unique inside scheduled sameId
      rw [sameEntry] at isPending
      exact settled (by simpa using isPending)
    · rw [unverified] at valid
      cases valid

theorem noDeadEnd
    (inv : Scheduled lineage schedule s plan) :
    NoDeadEnd env s := by
  intro current latest current_ unblocked
  obtain rfl : plan = current := Option.some.inj (inv.latest.symm.trans latest)
  have active : activeWorkItem env s = unfinishedItem s plan := by
    unfold activeWorkItem
    rw [latest]
    exact if_pos current_
  cases unfinished : unfinishedItem s plan with
  | some item =>
      left
      rw [active, unfinished]
      rfl
  | none =>
      right
      obtain ⟨verification, newest, fits, passes, covers⟩ := inv.final unblocked unfinished
      refine ⟨verification, newest, covers, ?_⟩
      intro native allowed base digest
      have commits : verificationCommits plan native verification = true := by
        simp only [verificationCommits, fits, passes, digest, Bool.true_and, decide_true,
          List.all_eq_true, decide_eq_true_eq]
        exact covers
      unfold repairPlanCommitDecision
      rw [latest, Option.filter_some, if_pos current_]
      simp [allowed, base, unblocked, active, unfinished, newest, commits]

end Scheduled

/--
In every run from a fresh plan with a pending item in which no verification
finishes the plan without covering all of it, the plan never gets stuck.
-/
theorem accumulating_run_no_dead_end
    {env : PlanEnv}
    {start s : AgentState}
    {plan : RepairPlan}
    (fresh : FreshPlan start plan)
    (pending : plan.executableIds ≠ [])
    (run : Reaches (planStep env) (accumulating env) start s) :
    NoDeadEnd env s := by
  have kept :
      ∃ current, Scheduled plan.lineageId plan.schedule s current := by
    refine Reaches.invariant
      (fun state => ∃ current, Scheduled plan.lineageId plan.schedule state current) ?_ run
      ⟨plan, Scheduled.start fresh pending⟩
    rintro state op ⟨current, inv⟩ allowed
    exact inv.step op allowed
  obtain ⟨current, inv⟩ := kept
  exact inv.noDeadEnd

namespace ThreeItems

theorem reason_bound : lengthIn 1 1000 "r" = true := by
  decide

theorem no_risks_bound : ([] : List String).length ≤ 10 := by
  decide

/-- An independent model passes the Diff for some items. -/
def passing (covered : List String) (bound : covered.length ≤ 20) (unique : covered.Nodup) :
    VerifierReply :=
  .returned "m"
    (some
      { verdict := .pass
        causalAlignment := true
        scopeCompliant := true
        evidenceSufficient := true
        coveredWorkItemIds := covered
        reason := "r"
        reasonBound := reason_bound
        risksBound := no_risks_bound
        coverageBound := bound
        coverageUnique := unique }) "" ""

theorem planned :
    ∃ plan,
      FreshPlan (after planning) plan ∧ plan.executableIds = ["x", "y", "z"] := by
  have evaluated :
      (latestRepairPlan (after planning)).any (fun plan =>
        decide (readablePlans (after planning) = [plan]) &&
          decide (readableVerifications (after planning) = []) &&
          decide (plan.executableIds = ["x", "y", "z"])) = true := by
    decide +kernel
  simp only [Option.any_eq_true, Bool.and_eq_true, decide_eq_true_eq] at evaluated
  obtain ⟨plan, latest, ⟨alone, unverified⟩, pending⟩ := evaluated
  refine ⟨plan, ⟨latest, ?_, ?_⟩, pending⟩
  · intro other member _
    rw [alone] at member
    exact List.mem_singleton.mp member
  · intro verification member
    rw [unverified] at member
    cases member

/-- The first item is verified alone, then the other two together. -/
def twoAtOnce : List PlanOp :=
  [.converse (repaired "x" "1"), .verify ["m"] "now" firstPass, .converse (repaired "y" "2"),
    .verify ["m"] "now" (passing ["y", "z"] (by decide) (by decide))]

/-- All items are verified at once. -/
def allAtOnce : List PlanOp :=
  [.converse (repaired "x" "1"),
    .verify ["m"] "now" (passing ["x", "y", "z"] (by decide) (by decide))]

end ThreeItems

open ThreeItems in
theorem accumulating_run_no_dead_end_all_at_once :
    NoDeadEnd env (allAtOnce.foldl (planStep env) (after planning)) := by
  obtain ⟨plan, fresh, pending⟩ := planned
  have accumulates :
      Accumulates env ((after planning).addMessages (repaired "x" "1"))
        (passing ["x", "y", "z"] (by decide) (by decide)) := by
    intro current latest _ _ id member
    rw [latestRepairPlan_addMessages, fresh.latest] at latest
    rw [← Option.some.inj latest, pending] at member
    exact member
  have run :
      Reaches (planStep env) (accumulating env) (after planning)
        (allAtOnce.foldl (planStep env) (after planning)) :=
    Reaches.of_follows ⟨trivial, accumulates, trivial⟩
  exact accumulating_run_no_dead_end fresh (by rw [pending]; decide) run

open ThreeItems in
/--
The model verifies one item and then the two others together: no item is
blocked, none is active, and the commit is refused although the native evidence
allows it.
-/
theorem plan_dead_end :
    ∃ start s plan,
      FreshPlan start plan ∧ plan.executableIds ≠ [] ∧
        Reaches (planStep env) (fun _ _ => True) start s ∧ ¬NoDeadEnd env s ∧
        (evaluateNativeCommit
          (planScopedAttempts s (buildExecutionLedger s.messages))).allowed = true := by
  obtain ⟨plan, fresh, pending⟩ := planned
  have evaluated :
      ((latestRepairPlan (twoAtOnce.foldl (planStep env) (after planning))).any fun current =>
        let s := twoAtOnce.foldl (planStep env) (after planning)
        decide (planMatchesLatestPipeline env s current = true) &&
          decide (blockedWorkItemIds s current = []) && (activeWorkItem env s).isNone &&
          decide ("x" ∈ current.executableIds) &&
          (latestRepairVerification s).all (fun verification =>
            decide ("x" ∉ verification.coveredWorkItemIds)) &&
          (evaluateNativeCommit
            (planScopedAttempts s (buildExecutionLedger s.messages))).allowed) = true := by
    decide +kernel
  simp only [Option.any_eq_true, Bool.and_eq_true, decide_eq_true_eq, Option.isNone_iff_eq_none]
    at evaluated
  obtain ⟨current, latest, ⟨⟨⟨⟨matching, unblocked⟩, idle⟩, executable⟩, uncovered⟩, native⟩ :=
    evaluated
  have run :
      Reaches (planStep env) (fun _ _ => True) (after planning)
        (twoAtOnce.foldl (planStep env) (after planning)) :=
    Reaches.of_follows ⟨trivial, trivial, trivial, trivial, trivial⟩
  refine ⟨after planning, _, plan, fresh, by rw [pending]; decide, run, ?_, native⟩
  intro free
  rcases free current latest matching unblocked with active | ⟨verification, newest, covers, -⟩
  · rw [idle] at active
    cases active
  · rw [newest] at uncovered
    simp only [Option.all_some, decide_eq_true_eq] at uncovered
    exact uncovered (covers "x" executable)

end MrAgent
