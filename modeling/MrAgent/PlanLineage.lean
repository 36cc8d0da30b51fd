import MrAgent.FallibleProgram
import MrAgent.RepairVerifier
import MrAgent.TransitionSystem

namespace MrAgent

open TransitionSystem

/-!
# What a plan lineage remembers

Completion is recomputed from the whole history each time it is asked for. The
scheduling functions look at a plan only through the identities and statuses of
its items and through the key its verifications name; a revision keeps the
first and changes the second. From that follows what the history of one lineage
can and cannot forget.
-/

theorem RepairWorkItem.modelValidate_cases
    {item read : RepairWorkItem}
    (accepted : item.modelValidate = some read) :
    item.fieldsValid = true ∧
      boundedUniqueValues item.jobNames = some read.jobNames ∧
      boundedUniqueValues item.failureEvidence = some read.failureEvidence ∧
      boundedUniqueValues item.requiredChecks = some read.requiredChecks ∧
      validatePaths item.allowedPaths = some read.allowedPaths ∧
      read =
        { item with
          jobNames := read.jobNames
          failureEvidence := read.failureEvidence
          requiredChecks := read.requiredChecks
          allowedPaths := read.allowedPaths } := by
  unfold RepairWorkItem.modelValidate at accepted
  split at accepted
  · rename_i fields
    split at accepted
    · rename_i jobNames failureEvidence requiredChecks allowedPaths jobs evidence checks paths
      cases accepted
      exact ⟨fields, jobs, evidence, checks, paths, rfl⟩
    · cases accepted
  · cases accepted

theorem RepairPlan.modelValidate_cases
    {raw read : RepairPlan}
    (accepted : raw.modelValidate = some read) :
    List.Forall₂ (fun item value => item.modelValidate = some value)
        raw.workItems read.workItems ∧
      read = { raw with workItems := read.workItems } ∧
      read.fieldsValid = true := by
  unfold RepairPlan.modelValidate at accepted
  split at accepted
  · cases accepted
  · rename_i items itemsRead
    unfold RepairPlan.construct at accepted
    split at accepted
    · rename_i fields
      cases accepted
      exact ⟨FallibleProgram.mapM_eq_some_iff.mp itemsRead, rfl, fields⟩
    · cases accepted

theorem RepairPlan.construct_eq_some
    {plan built : RepairPlan} :
    plan.construct = some built ↔ plan.fieldsValid = true ∧ built = plan := by
  unfold RepairPlan.construct
  cases plan.fieldsValid <;> simp [eq_comm]

theorem RepairVerification.modelValidate_eq_some
    {stored read : RepairVerification} :
    stored.modelValidate = some read ↔ stored.fieldsValid = true ∧ read = stored := by
  unfold RepairVerification.modelValidate
  cases stored.fieldsValid <;> simp [eq_comm]

namespace RepairPlan

/-- All that the scheduling functions look at in the items of a plan. -/
def schedule (plan : RepairPlan) : List (String × WorkItemStatus) :=
  plan.workItems.map fun item => (item.workItemId, item.status)

theorem ids_eq_schedule (plan : RepairPlan) : plan.ids = plan.schedule.map (·.1) := by
  simp [ids, schedule]

theorem executableIds_eq_schedule (plan : RepairPlan) :
    plan.executableIds = (plan.schedule.filter (·.2 = .pending)).map (·.1) := by
  simp [executableIds, schedule, List.filter_map, Function.comp_def]

theorem schedule_of_modelValidate
    {raw read : RepairPlan}
    (accepted : raw.modelValidate = some read) :
    read.schedule = raw.schedule := by
  obtain ⟨items, -, -⟩ := modelValidate_cases accepted
  unfold schedule
  generalize raw.workItems = stored, read.workItems = values at items
  induction items with
  | nil =>
      rfl
  | cons first _ ih =>
      obtain ⟨-, -, -, -, -, same⟩ := RepairWorkItem.modelValidate_cases first
      rw [List.map_cons, List.map_cons, ih, same]

theorem key_of_modelValidate
    {raw read : RepairPlan}
    (accepted : raw.modelValidate = some read) :
    read.key = raw.key := by
  obtain ⟨-, same, -⟩ := modelValidate_cases accepted
  rw [same]
  rfl

/-- The value whose digest is the identity of a plan. -/
def payload (plan : RepairPlan) : DigestPayload :=
  .plan plan.lineageId plan.version plan.workItems

end RepairPlan

/-! ## Reading the history -/

/-- The plans of the history that can be read, oldest first. -/
def readablePlans (s : AgentState) : List RepairPlan :=
  s.repairPlans.filterMap RepairPlan.modelValidate

/-- The verifications of the history that can be read, oldest first. -/
def readableVerifications (s : AgentState) : List RepairVerification :=
  s.repairVerifications.filterMap RepairVerification.modelValidate

theorem latestRepairPlan_eq (s : AgentState) : latestRepairPlan s = (readablePlans s).getLast? := by
  simp [latestRepairPlan, readablePlans]

theorem latestRepairVerification_eq (s : AgentState) :
    latestRepairVerification s = (readableVerifications s).getLast? := by
  simp [latestRepairVerification, readableVerifications]

variable {s : AgentState} {plan : RepairPlan}

theorem mem_readablePlans_of_latest
    (latest : latestRepairPlan s = some plan) :
    plan ∈ readablePlans s :=
  List.mem_of_getLast? (latestRepairPlan_eq s ▸ latest)

theorem readablePlans_addPlan (s : AgentState) (plan : RepairPlan) :
    readablePlans (s.addPlan plan) = readablePlans s ++ plan.modelValidate.toList := by
  simp only [readablePlans, AgentState.addPlan, List.filterMap_append, List.filterMap_cons,
    List.filterMap_nil]
  cases plan.modelValidate <;> rfl

theorem readableVerifications_addVerification
    (s : AgentState)
    (verification : RepairVerification) :
    readableVerifications (s.addVerification verification) =
      readableVerifications s ++ verification.modelValidate.toList := by
  simp only [readableVerifications, AgentState.addVerification, List.filterMap_append,
    List.filterMap_cons, List.filterMap_nil]
  cases verification.modelValidate <;> rfl

@[simp] theorem latestRepairPlan_addMessages (s : AgentState) (more : List Message) :
    latestRepairPlan (s.addMessages more) = latestRepairPlan s :=
  rfl

theorem latestRepairPlan_addPlan (s : AgentState) (plan : RepairPlan) :
    latestRepairPlan (s.addPlan plan) = plan.modelValidate.or (latestRepairPlan s) := by
  rw [latestRepairPlan_eq, latestRepairPlan_eq, readablePlans_addPlan, List.getLast?_append]
  cases plan.modelValidate <;> rfl

/-! ## Which plan a verification is judged against -/

theorem historicalPlan_eq
    (readable : plan ∈ readablePlans s)
    (key : String × String × Nat × String) :
    historicalPlan s plan key =
      ((readablePlans s).filter (·.lineageId = plan.lineageId)).reverse.find? (·.key = key) := by
  have member : plan ∈ ((readablePlans s).filter (·.lineageId = plan.lineageId)).reverse := by
    simpa using readable
  unfold historicalPlan lineagePlans
  rw [List.reverse_cons, List.find?_append, ← readablePlans]
  by_cases own : plan.key = key
  · have found :
        (((readablePlans s).filter (·.lineageId = plan.lineageId)).reverse.find?
          (·.key = key)).isSome := by
      rw [List.find?_isSome]
      exact ⟨plan, member, by simpa using own⟩
    obtain ⟨source, found⟩ := Option.isSome_iff_exists.mp found
    rw [found]
    rfl
  · simp [own]

theorem historicalPlan_addPlan
    {plan raw revised : RepairPlan}
    (readable : plan ∈ readablePlans s)
    (accepted : raw.modelValidate = some revised)
    (lineage : revised.lineageId = plan.lineageId)
    (key : String × String × Nat × String) :
    historicalPlan (s.addPlan raw) revised key =
      if revised.key = key then some revised else historicalPlan s plan key := by
  have extended : readablePlans (s.addPlan raw) = readablePlans s ++ [revised] := by
    rw [readablePlans_addPlan, accepted]
    rfl
  have newest : revised ∈ readablePlans (s.addPlan raw) := by
    rw [extended]
    exact List.mem_append_right _ (List.mem_singleton_self _)
  rw [historicalPlan_eq newest, historicalPlan_eq readable, extended, lineage]
  rw [List.filter_append, List.reverse_append, List.find?_append]
  by_cases own : revised.key = key
  · simp [own, lineage]
  · simp [own, lineage]

theorem verificationMatchesPlan_congr
    {first second : RepairPlan}
    (keys : first.key = second.key)
    (ids : first.ids = second.ids)
    (verification : RepairVerification) :
    verificationMatchesPlan first verification = verificationMatchesPlan second verification := by
  unfold verificationMatchesPlan
  rw [keys, ids]

variable {verification : RepairVerification}

theorem mem_validLineageVerifications :
    verification ∈ validLineageVerifications s plan ↔
      verification ∈ readableVerifications s ∧
        ∃ source, historicalPlan s plan verification.key = some source ∧
          verificationMatchesPlan source verification = true := by
  unfold validLineageVerifications readableVerifications
  rw [List.mem_filter]
  cases historicalPlan s plan verification.key <;> simp

theorem mem_completedWorkItemIds
    {id : String} :
    id ∈ completedWorkItemIds s plan ↔
      (∃ status, status ≠ .pending ∧ (id, status) ∈ plan.schedule) ∨
        ∃ verification ∈ validLineageVerifications s plan,
          id ∈ completedBy plan verification := by
  unfold completedWorkItemIds RepairPlan.schedule
  simp only [List.mem_append, List.mem_map, List.mem_filter, List.mem_flatMap,
    decide_eq_true_eq, Prod.mk.injEq]
  constructor
  · rintro (⟨item, ⟨member, status⟩, rfl⟩ | verified)
    · exact .inl ⟨item.status, status, item, member, rfl, rfl⟩
    · exact .inr verified
  · rintro (⟨status, settled, item, member, rfl, rfl⟩ | verified)
    · exact .inl ⟨item, ⟨member, settled⟩, rfl⟩
    · exact .inr verified

theorem mem_blockedWorkItemIds
    {id : String} :
    id ∈ blockedWorkItemIds s plan ↔
      (id, .blocked) ∈ plan.schedule ∨
        (id ∈ plan.ids ∧ ∃ verification ∈ validLineageVerifications s plan,
          verification.verdict = .block ∧ verification.workItemId = id) := by
  unfold blockedWorkItemIds RepairPlan.schedule
  simp only [List.mem_append, List.mem_map, List.mem_filter, Bool.and_eq_true,
    decide_eq_true_eq, Prod.mk.injEq]
  constructor
  · rintro (⟨item, ⟨member, status⟩, rfl⟩ | ⟨verification, ⟨valid, block, named⟩, rfl⟩)
    · exact .inl ⟨item, member, rfl, status⟩
    · exact .inr ⟨named, verification, valid, block, rfl⟩
  · rintro (⟨item, member, rfl, status⟩ | ⟨named, verification, valid, block, rfl⟩)
    · exact .inl ⟨item, ⟨member, status⟩, rfl⟩
    · exact .inr ⟨verification, ⟨valid, block, named⟩, rfl⟩

/-! ## Writing the history -/

variable {now : String}

theorem buildRevisedRepairPlan_cases
    {env : PlanEnv}
    {plan revised : RepairPlan}
    {request : ReplanRequest}
    (built : buildRevisedRepairPlan env s now plan request = some revised) :
    ∃ current item proposed,
      latestRepairPlan s = some current ∧ current.planId = plan.planId ∧
        activeWorkItem env s = some item ∧ request.workItemId = item.workItemId ∧
        plan.evidenceCursor < request.sequence ∧
        request.proposedPaths.mapM normalizeRepairPath = some proposed ∧
        revised.fieldsValid = true ∧
        revised =
          { plan with
            planId := revised.planId
            version := plan.version + 1
            evidenceCursor := request.sequence
            createdAt := now
            revisionReason := revised.revisionReason
            planningMode := .deterministicFallback
            plannerModel := ""
            plannerErrorCode := ""
            workItems := plan.workItems.map (reviseItem request proposed.eraseDups) } ∧
        revised.planId = env.digest revised.payload := by
  unfold buildRevisedRepairPlan at built
  simp only [Option.bind_eq_bind, Option.bind_eq_some_iff, Option.guard_eq_some', exists_and_left,
    exists_const] at built
  obtain ⟨-, current, latest, samePlan, item, active, target, newer, proposed, normalised, built⟩ :=
    built
  obtain ⟨fields, same⟩ := RepairPlan.construct_eq_some.mp built
  refine ⟨current, item, proposed, latest, samePlan, active, target, newer, normalised, ?_⟩
  rw [same]
  exact ⟨fields, rfl, rfl⟩

theorem schedule_of_revised
    {env : PlanEnv}
    {plan revised : RepairPlan}
    {request : ReplanRequest}
    (built : buildRevisedRepairPlan env s now plan request = some revised) :
    revised.schedule = plan.schedule := by
  obtain ⟨-, -, proposed, -, -, -, -, -, -, -, same, -⟩ := buildRevisedRepairPlan_cases built
  rw [same]
  simp only [RepairPlan.schedule, List.map_map]
  apply List.map_congr_left
  intro item _
  simp only [Function.comp_apply, reviseItem]
  split <;> rfl

theorem buildInitialRepairPlan_cases
    {env : PlanEnv}
    {author : PlanAuthor}
    (built : buildInitialRepairPlan env s now author = some plan) :
    ∃ pipeline items,
      latestFailedPipeline s.messages = some pipeline ∧
        workItemsFromPipeline env pipeline = some items ∧
        plan.fieldsValid = true ∧
        plan.workItems = (items.map author.hypothesise).map (markExhausted env s) ∧
        plan.lineageId = lineageIdentifier env s (pipelineIdentity env s pipeline) ∧
        plan.version = 1 ∧
        plan.evidenceCursor = newestEvidence (buildExecutionLedger s.messages) (-1) ∧
        plan.plannerErrorCode = "" ∧
        plan.planId = env.digest plan.payload := by
  unfold buildInitialRepairPlan at built
  simp only [Option.bind_eq_bind, Option.bind_eq_some_iff, Option.guard_eq_some', exists_and_left,
    exists_const] at built
  obtain ⟨pipeline, failed, -, items, made, -, built⟩ := built
  obtain ⟨fields, same⟩ := RepairPlan.construct_eq_some.mp built
  refine ⟨pipeline, items, failed, made, ?_⟩
  rw [same]
  exact ⟨fields, rfl, rfl, rfl, rfl, rfl, rfl⟩

variable {reply : PlannerReply}

theorem modelPlan_error
    {env : PlanEnv}
    {pending : List String}
    {name : String}
    (refused : modelPlan env s now pending reply = .error name) :
    reply = .failed name ∨ ((∀ other, reply ≠ .failed other) ∧ name.length ≤ 83) := by
  have shortNames : "validationerror".length ≤ 83 ∧ "valueerror".length ≤ 83 := by decide
  cases reply with
  | failed errorName =>
      cases refused
      exact .inl rfl
  | answered model hypotheses =>
      refine .inr ⟨fun _ => PlannerReply.noConfusion, ?_⟩
      unfold modelPlan at refused
      dsimp only at refused
      split at refused
      · cases refused
        exact shortNames.1
      · split at refused
        · cases refused
          exact shortNames.2
        · split at refused
          · cases refused
          · cases refused
            exact shortNames.1

theorem modelPlan_ok
    {env : PlanEnv}
    {pending : List String}
    (planned : modelPlan env s now pending reply = .ok plan) :
    (∀ name, reply ≠ .failed name) ∧
      ∃ author, buildInitialRepairPlan env s now author = some plan := by
  cases reply with
  | failed errorName =>
      cases planned
  | answered model hypotheses =>
      refine ⟨fun _ => PlannerReply.noConfusion, ?_⟩
      unfold modelPlan at planned
      dsimp only at planned
      split at planned
      · cases planned
      · split at planned
        · cases planned
        · split at planned
          · rename_i built
            cases planned
            exact ⟨_, built⟩
          · cases planned

theorem initialPlan_cases
    {env : PlanEnv}
    (planned : initialPlan env s now reply = some plan) :
    ∃ fallback,
      buildInitialRepairPlan env s now {} = some fallback ∧
        ((fallback.executableIds = [] ∧ plan = fallback) ∨
          (∃ author,
            (∀ name, reply ≠ .failed name) ∧
              buildInitialRepairPlan env s now author = some plan) ∨
          (fallback.executableIds ≠ [] ∧
            ∃ name,
              plan = { fallback with plannerErrorCode := "planner_fallback_" ++ name } ∧
                (reply = .failed name ∨
                  ((∀ other, reply ≠ .failed other) ∧ name.length ≤ 83)))) := by
  unfold initialPlan at planned
  split at planned
  · cases planned
  · rename_i fallback built
    refine ⟨fallback, built, ?_⟩
    split at planned
    · rename_i idle
      cases planned
      exact .inl ⟨idle, rfl⟩
    · rename_i pending
      split at planned
      · rename_i modelled answer
        cases planned
        obtain ⟨answered, author, made⟩ := modelPlan_ok answer
        exact .inr (.inl ⟨author, answered, made⟩)
      · rename_i name refused
        cases planned
        exact .inr (.inr ⟨pending, name, rfl, modelPlan_error refused⟩)

theorem initialPlan_built
    {env : PlanEnv}
    (planned : initialPlan env s now reply = some plan) :
    ∃ author built code,
      buildInitialRepairPlan env s now author = some built ∧
        plan = { built with plannerErrorCode := code } := by
  obtain ⟨fallback, made, cases_⟩ := initialPlan_cases planned
  rcases cases_ with ⟨-, rfl⟩ | ⟨author, -, built⟩ | ⟨-, name, rfl, -⟩
  · exact ⟨_, plan, plan.plannerErrorCode, made, rfl⟩
  · exact ⟨author, plan, plan.plannerErrorCode, built, rfl⟩
  · exact ⟨_, fallback, _, made, rfl⟩

theorem repairPlannerNode_identified
    {env : PlanEnv}
    (written : repairPlannerNode env s now reply = some plan) :
    plan.planId = env.digest plan.payload := by
  unfold repairPlannerNode at written
  split at written
  · obtain ⟨author, built, code, made, rfl⟩ := initialPlan_built written
    obtain ⟨-, -, -, -, -, -, -, -, -, -, identified⟩ := buildInitialRepairPlan_cases made
    exact identified
  · split at written
    · cases written
    · split at written
      · cases written
      · obtain ⟨-, -, -, -, -, -, -, -, -, -, -, identified⟩ := buildRevisedRepairPlan_cases written
        exact identified

/-- What happens to the history of an agent: the conversation, the planner, the verifier. -/
inductive RepairOp where
  | converse (more : List Message)
  | plan (now : String) (reply : PlannerReply)
  | verify (modelCandidates : List String) (now : String) (reply : VerifierReply)

/-- One step of the repair run; a node that raises or returns nothing changes nothing. -/
def AgentState.step (env : PlanEnv) (s : AgentState) : RepairOp → AgentState
  | .converse more => s.addMessages more
  | .plan now reply =>
    match repairPlannerNode env s now reply with
    | some plan => s.addPlan plan
    | none => s
  | .verify modelCandidates now reply =>
    match repairVerifierNode env modelCandidates s now reply with
    | some verification => s.addVerification verification
    | none => s

/-- A state that a repair run can be in, its history being empty at the start. -/
def RepairReachable (env : PlanEnv) (s : AgentState) : Prop :=
  ∃ start : AgentState,
    start.repairPlans = [] ∧ start.repairVerifications = [] ∧
      Reaches (AgentState.step env) (fun _ _ => True) start s

/-- Every stored plan is identified by the digest of its own content. -/
def PlansIdentified (env : PlanEnv) (s : AgentState) : Prop :=
  ∀ plan ∈ s.repairPlans, plan.planId = env.digest plan.payload

theorem PlansIdentified.step
    {env : PlanEnv}
    (identified : PlansIdentified env s)
    (op : RepairOp) :
    PlansIdentified env (s.step env op) := by
  cases op with
  | converse more =>
      exact identified
  | plan now reply =>
      unfold AgentState.step
      dsimp only
      split
      · rename_i plan written
        intro stored member
        rcases List.mem_append.mp member with old | new
        · exact identified stored old
        · obtain rfl := List.mem_singleton.mp new
          exact repairPlannerNode_identified written
      · exact identified
  | verify modelCandidates now reply =>
      unfold AgentState.step
      dsimp only
      split <;> exact identified

theorem RepairReachable.plansIdentified
    {env : PlanEnv}
    (reachable : RepairReachable env s) :
    PlansIdentified env s := by
  obtain ⟨start, noPlans, -, run⟩ := reachable
  apply Reaches.invariant (PlansIdentified env) (fun _ op kept _ => kept.step op) run
  intro plan member
  rw [noPlans] at member
  cases member

/-! ## Completion never shrinks -/

/-- SHA-256 tells the new plan apart from every stored plan of other content. -/
def FreshDigest (env : PlanEnv) (s : AgentState) (plan : RepairPlan) : Prop :=
  ∀ stored ∈ s.repairPlans,
    env.digest stored.payload = env.digest plan.payload → stored.payload = plan.payload

theorem ids_eq_of_key_eq
    {env : PlanEnv}
    {raw revised source : RepairPlan}
    (identified : PlansIdentified env s)
    (fresh : FreshDigest env s raw)
    (own : raw.planId = env.digest raw.payload)
    (accepted : raw.modelValidate = some revised)
    (readable : source ∈ readablePlans s)
    (keys : source.key = revised.key) :
    source.ids = revised.ids := by
  obtain ⟨stored, member, read⟩ := List.mem_filterMap.mp readable
  have sameKey : stored.key = raw.key := by
    rw [← RepairPlan.key_of_modelValidate read, keys, RepairPlan.key_of_modelValidate accepted]
  have samePlan : stored.planId = raw.planId := congrArg Prod.fst sameKey
  have samePayload : stored.payload = raw.payload := by
    apply fresh stored member
    rw [← identified stored member, ← own, samePlan]
  have sameItems : stored.workItems = raw.workItems := by
    injection samePayload
  rw [RepairPlan.ids_eq_schedule, RepairPlan.ids_eq_schedule,
    RepairPlan.schedule_of_modelValidate read, RepairPlan.schedule_of_modelValidate accepted,
    RepairPlan.schedule, RepairPlan.schedule, sameItems]

theorem validLineageVerifications_addPlan
    {env : PlanEnv}
    {plan raw revised : RepairPlan}
    (identified : PlansIdentified env s)
    (fresh : FreshDigest env s raw)
    (own : raw.planId = env.digest raw.payload)
    (readable : plan ∈ readablePlans s)
    (accepted : raw.modelValidate = some revised)
    (lineage : revised.lineageId = plan.lineageId)
    (valid : verification ∈ validLineageVerifications s plan) :
    verification ∈ validLineageVerifications (s.addPlan raw) revised := by
  obtain ⟨stored, source, found, fits⟩ := mem_validLineageVerifications.mp valid
  apply mem_validLineageVerifications.mpr
  refine ⟨stored, ?_⟩
  rw [historicalPlan_addPlan readable accepted lineage]
  by_cases taken : revised.key = verification.key
  · have sourceKey : source.key = verification.key := by
      simpa using List.find?_some found
    have sourceReadable : source ∈ readablePlans s := by
      rw [historicalPlan_eq readable] at found
      exact List.mem_of_mem_filter (List.mem_reverse.mp (List.mem_of_find?_eq_some found))
    have keys : source.key = revised.key := sourceKey.trans taken.symm
    have ids := ids_eq_of_key_eq identified fresh own accepted sourceReadable keys
    refine ⟨revised, if_pos taken, ?_⟩
    rw [← verificationMatchesPlan_congr keys ids]
    exact fits
  · exact ⟨source, by rw [if_neg taken, found], fits⟩

theorem completedWorkItemIds_mono
    {before after : AgentState}
    {plan revised : RepairPlan}
    (schedules : revised.schedule = plan.schedule)
    (valid :
      ∀ verification ∈ validLineageVerifications before plan,
        verification ∈ validLineageVerifications after revised)
    {id : String}
    (completed : id ∈ completedWorkItemIds before plan) :
    id ∈ completedWorkItemIds after revised := by
  have ids : revised.ids = plan.ids := by
    rw [RepairPlan.ids_eq_schedule, RepairPlan.ids_eq_schedule, schedules]
  rcases mem_completedWorkItemIds.mp completed with settled | ⟨verification, counted, closes⟩
  · exact mem_completedWorkItemIds.mpr (.inl (schedules ▸ settled))
  · refine mem_completedWorkItemIds.mpr (.inr ⟨verification, valid verification counted, ?_⟩)
    unfold completedBy
    rw [ids]
    exact closes

theorem validLineageVerifications_addVerification
    (valid : verification ∈ validLineageVerifications s plan)
    (next : RepairVerification) :
    verification ∈ validLineageVerifications (s.addVerification next) plan := by
  obtain ⟨stored, source, found, fits⟩ := mem_validLineageVerifications.mp valid
  apply mem_validLineageVerifications.mpr
  refine ⟨?_, source, found, fits⟩
  rw [readableVerifications_addVerification]
  exact List.mem_append_left _ stored

/--
Completion is monotone within a lineage: neither a stored verification nor a
revision takes a completed item back, and a revision keeps every item.
-/
theorem plan_completion_monotone
    {env : PlanEnv}
    {s : AgentState}
    {plan : RepairPlan}
    (reachable : RepairReachable env s)
    (latest : latestRepairPlan s = some plan) :
    (∀ verification,
        ∀ id ∈ completedWorkItemIds s plan,
          id ∈ completedWorkItemIds (s.addVerification verification) plan) ∧
      ∀ now request revised,
        buildRevisedRepairPlan env s now plan request = some revised →
        FreshDigest env s revised →
        (∀ id ∈ completedWorkItemIds s plan, id ∈ plan.ids → id ∈ revised.ids) ∧
          ∀ current,
            latestRepairPlan (s.addPlan revised) = some current →
            ∀ id ∈ completedWorkItemIds s plan,
              id ∈ plan.ids →
              id ∈ current.ids →
              id ∈ completedWorkItemIds (s.addPlan revised) current := by
  have readable := mem_readablePlans_of_latest latest
  constructor
  · intro verification id completed
    exact completedWorkItemIds_mono rfl
      (fun _ valid => validLineageVerifications_addVerification valid verification) completed
  · intro now request revised built fresh
    have schedules := schedule_of_revised built
    constructor
    · intro id _ present
      rw [RepairPlan.ids_eq_schedule, schedules, ← RepairPlan.ids_eq_schedule]
      exact present
    · intro current newest id completed _ _
      rw [latestRepairPlan_addPlan] at newest
      cases accepted : revised.modelValidate with
      | none =>
          -- The revision cannot be read: the plan stays the latest, and so does its history.
          rw [accepted, latest] at newest
          obtain rfl : plan = current := Option.some.inj newest
          have unchanged : readablePlans (s.addPlan revised) = readablePlans s := by
            rw [readablePlans_addPlan, accepted, Option.toList_none, List.append_nil]
          apply completedWorkItemIds_mono rfl _ completed
          intro verification valid
          obtain ⟨stored, source, found, fits⟩ := mem_validLineageVerifications.mp valid
          rw [historicalPlan_eq readable] at found
          refine mem_validLineageVerifications.mpr ⟨stored, source, ?_, fits⟩
          rw [historicalPlan_eq (unchanged ▸ readable), unchanged, found]
      | some read =>
          rw [accepted] at newest
          obtain rfl : read = current := Option.some.inj newest
          obtain ⟨-, -, proposed, -, -, -, -, -, -, -, same, own⟩ :=
            buildRevisedRepairPlan_cases built
          have lineage : read.lineageId = plan.lineageId := by
            obtain ⟨-, sameRead, -⟩ := RepairPlan.modelValidate_cases accepted
            rw [sameRead, same]
          apply completedWorkItemIds_mono _ _ completed
          · rw [RepairPlan.schedule_of_modelValidate accepted, schedules]
          · intro verification valid
            exact validLineageVerifications_addPlan reachable.plansIdentified fresh own readable
              accepted lineage valid

/-! ## A plan with three work items -/

namespace ThreeItems

/-- A digest with sixty-four characters that tells versions apart. -/
def env : PlanEnv where
  digest
    | .failure _ => String.ofList (List.replicate 64 'f')
    | .lineage .. => String.ofList (List.replicate 64 'e')
    | .plan _ version _ => String.ofList (Char.ofNat (48 + version) :: List.replicate 63 'a')
  buildRootCauseGroups := fun _ => []
  diagnosticPath := fun _ => ""
  lower := id
  nativeBackend := true
  exhaustedRootIds := fun _ => []

/-- A tool call and its answer. -/
def exchange (id : String) (name : ToolName) (item : String) (result : ToolResult) :
    List Message :=
  [{ toolCalls := [⟨id, name, { workItemId := item }⟩] },
    { toolCallId := id, content := .object result }]

/-- A failed Pipeline with three root causes. -/
def pipeline : ToolResult where
  status := .success
  pipelineStatus := .failed
  requestedCommitSha := "b"
  matchedCommitSha := "b"
  pipelineId := some 7
  rootCauseGroups := ["x", "y", "z"].map fun root => ⟨root, root, root, [root]⟩

/-- A patch for one item, its complete review and its validation. -/
def repaired (item digest : String) : List Message :=
  exchange ("p" ++ digest) .applyRepoPatch item
      { status := .changed
        patchApplied := true
        baseSha := "b"
        diffDigest := digest
        workItemId := item } ++
    exchange ("i" ++ digest) .inspectRepoDiff item
      { status := .ok
        baseSha := "b"
        diffDigest := digest
        totalLines := 1
        startLine := 1
        endLine := 1
        diff := ["+"] } ++
    exchange ("v" ++ digest) .runRepoValidation item
      { status := .ok
        baseSha := "b"
        validatedDiffDigest := digest
        requiredChecks := ["diff_check"]
        executedChecks := [⟨"diff_check", true⟩]
        allPassed := true }

/-- An independent model passes the Diff for the first item. -/
def firstPass : VerifierReply :=
  .returned "m"
    (some
      { verdict := .pass
        causalAlignment := true
        scopeCompliant := true
        evidenceSufficient := true
        coveredWorkItemIds := ["x"]
        reason := "r" }) "" ""

/-- The Pipeline has failed and the planner has written the first version of the plan. -/
def planning : List RepairOp :=
  [.converse (exchange "f" .fetchPipelineLogs "" pipeline), .plan "now" (.failed "e")]

/-- The first item has been repaired and verified. -/
def firstVerified : List RepairOp :=
  planning ++ [.converse (repaired "x" "1"), .verify ["m"] "now" firstPass]

/-- The agent before its first message. -/
def started : AgentState where
  projectId := "p"
  mrId := 1

/-- The state after some steps. -/
def after (ops : List RepairOp) : AgentState :=
  ops.foldl (AgentState.step env) started

theorem after_reachable (ops : List RepairOp) : RepairReachable env (after ops) := by
  refine ⟨started, rfl, rfl, Reaches.of_follows ?_⟩
  generalize started = state
  induction ops generalizing state with
  | nil =>
      trivial
  | cons op rest ih =>
      exact ⟨trivial, ih _⟩

/-- A request to repair another file for the second item. -/
def widerRequest : ReplanRequest where
  workItemId := "y"
  reason := "r"
  proposedPaths := ["a.c"]
  sequence := 7

end ThreeItems

open ThreeItems in
/-- After the first item is verified and the plan is revised for the second, it stays completed. -/
theorem plan_completion_monotone_revision :
    ∃ plan revised,
      latestRepairPlan (after firstVerified) = some plan ∧
        buildRevisedRepairPlan env (after firstVerified) "now" plan widerRequest =
          some revised ∧
        latestRepairPlan ((after firstVerified).addPlan revised) = some revised ∧
        "x" ∈ completedWorkItemIds ((after firstVerified).addPlan revised) revised := by
  have evaluated :
      (latestRepairPlan (after firstVerified)).any (fun plan =>
        (buildRevisedRepairPlan env (after firstVerified) "now" plan widerRequest).any
          fun revised =>
            decide (latestRepairPlan ((after firstVerified).addPlan revised) = some revised) &&
              decide ("x" ∈ completedWorkItemIds (after firstVerified) plan) &&
              decide ("x" ∈ plan.ids) && decide ("x" ∈ revised.ids) &&
              (after firstVerified).repairPlans.all fun stored =>
                decide (env.digest stored.payload ≠ env.digest revised.payload)) = true := by
    decide +kernel
  simp only [Option.any_eq_true, Bool.and_eq_true, decide_eq_true_eq, List.all_eq_true] at evaluated
  obtain ⟨plan, latest, revised, built, ⟨⟨⟨newest, completed⟩, present⟩, kept⟩, fresh⟩ := evaluated
  refine ⟨plan, revised, latest, built, newest, ?_⟩
  have monotone := plan_completion_monotone (after_reachable firstVerified) latest
  exact (monotone.2 "now" widerRequest revised built
    (fun stored member same => absurd same (fresh stored member))).2
      revised newest "x" completed present kept

end MrAgent
