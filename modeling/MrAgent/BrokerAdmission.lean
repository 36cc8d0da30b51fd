import MrAgent.BrokerTask

namespace MrAgent

/-!
# Admission scripts

`ENQUEUE_TASK_LUA`, `ENQUEUE_TASK_WITH_CARD_LUA`, `ADMIT_POST_REPAIR_UT_LUA`
and the reconciler `RECONCILE_ADMISSION_GATE_LUA`. Each combines a
deduplication key, the merge request's triage gate and, for cards, the card's
active task. The argument checks that Python makes before the call (positive
times to live, well-formed JSON, finite timestamps) hold by typing.
-/

/-- `_is_triage_task`: an MR command whose first word is a repair command. -/
def isTriageTask (envelope : TaskEnvelope) : Bool :=
  let word := (strip envelope.command.toList).takeWhile fun c => !isSpace c
  envelope.mr.isSome &&
    ["/triage".toList, "/fix-format".toList, "/fix_format".toList,
      "/repair-pipeline".toList].contains (word.map Char.toLower)

/-- Reply of the admission scripts. -/
inductive EnqueueReply where
  | refused (code : Int) (detail : String) (holder : Option TaskId)
  | admitted (created : Bool) (task : TaskId) (recovered : Bool)
deriving DecidableEq

/-- What `enqueue_task` passes to its script. -/
structure EnqueueArgs where
  envelope : TaskEnvelope
  priorityOverAuto : Bool
deriving DecidableEq

namespace EnqueueArgs

/-- The keys of the request's merge request. -/
def scope (args : EnqueueArgs) : MrScope :=
  args.envelope.mr

/-- `is_priority_triage`. -/
def priority (args : EnqueueArgs) : Bool :=
  args.priorityOverAuto && isTriageTask args.envelope

/-- The stored admission context: no card. -/
def context (_ : EnqueueArgs) : AdmissionContext :=
  {}

end EnqueueArgs

/-- What the admission found under an already known task id. -/
inductive Inspection where
  | stale
  | healthy
  | recovered
deriving DecidableEq

/-- The hash fields every admission writes for a new task. -/
def preparedTask
    (envelope : TaskEnvelope)
    (context : AdmissionContext)
    (t : TaskHash) : TaskHash :=
  { t with
    payload := some envelope
    status := some .queued
    attempt := some 0
    createdAt := some envelope.createdAt
    updatedAt := some envelope.createdAt
    admissionState := some .preparing
    admissionContext := some context }

/-- The last write of an admission. -/
def enqueuedTask (ingressId : Nat) (t : TaskHash) : TaskHash :=
  { t with admissionState := some .enqueued, ingressMessageId := some ingressId }

namespace Broker

/--
`inspect_or_recover`. The recovery writes use the keys of the *request*: its
merge request's task set and gate.
-/
def inspectOrRecover
    (s : Broker)
    (args : EnqueueArgs)
    (task : TaskId) : Broker × Inspection :=
  let stored := s.tasks task
  let now := args.envelope.createdAt
  if !stored.exists_ || stored.terminal then (s, .stale)
  else if stored.admissionIncomplete then
    if stored.payload = none then
      let s := s.updTask task fun t =>
        { t with
          status := some .failed
          error := some "admission_incomplete"
          updatedAt := some now }
      (s.setActiveRepair task none, .stale)
    else
      let s := s.addMrTask args.scope task
      let s :=
        if args.priority then
          (s.setGate args.scope (some task)).setActiveRepair task (some now)
        else s
      let ingressId := s.nextMessageId
      let s := s.pushIngress task
      (s.updTask task fun t => { enqueuedTask ingressId t with updatedAt := some now },
        .recovered)
  else (s, .healthy)

/-- The writes with which three of the admission scripts create a task, from the deduplication key
to the final mark. -/
def startTask
    (s : Broker)
    (envelope : TaskEnvelope)
    (context : AdmissionContext)
    (priority : Bool) : Broker :=
  let task := envelope.taskId
  let s := s.setDedup envelope.idempotencyKey (some task)
  let s := s.updTask task (preparedTask envelope context)
  let s := if envelope.mr.isSome then s.addMrTask envelope.mr task else s
  let s :=
    if priority then
      (s.setGate envelope.mr (some task)).setActiveRepair task (some envelope.createdAt)
    else s
  let ingressId := s.nextMessageId
  let s := s.pushIngress task
  s.updTask task (enqueuedTask ingressId)

section StartTask

variable (s : Broker) (envelope : TaskEnvelope) (context : AdmissionContext) (priority : Bool)

@[simp]
theorem startTask_tasks :
    (s.startTask envelope context priority).tasks =
      Function.update s.tasks envelope.taskId
        (enqueuedTask s.nextMessageId
          (preparedTask envelope context (s.tasks envelope.taskId))) := by
  unfold startTask
  dsimp only
  split <;> split <;> simp [nextMessageId]

@[simp]
theorem startTask_gates :
    (s.startTask envelope context priority).gates =
      if priority then Function.update s.gates envelope.mr (some envelope.taskId)
      else s.gates := by
  unfold startTask
  dsimp only
  split <;> split <;> simp

@[simp]
theorem startTask_leases : (s.startTask envelope context priority).leases = s.leases := by
  unfold startTask
  dsimp only
  split <;> split <;> simp

@[simp]
theorem startTask_fences : (s.startTask envelope context priority).fences = s.fences := by
  unfold startTask
  dsimp only
  split <;> split <;> simp

@[simp]
theorem startTask_cards : (s.startTask envelope context priority).cards = s.cards := by
  unfold startTask
  dsimp only
  split <;> split <;> simp

end StartTask

/-- The writes of `ENQUEUE_TASK_LUA` for a new task. -/
def createTask (s : Broker) (args : EnqueueArgs) : Broker :=
  s.startTask args.envelope args.context args.priority

/-- The gate part of `ENQUEUE_TASK_LUA`, after the deduplication key. -/
def enqueueBehindGate (s : Broker) (args : EnqueueArgs) : Broker × EnqueueReply :=
  let key := args.envelope.idempotencyKey
  let create := fun s : Broker =>
    (s.createTask args, EnqueueReply.admitted true args.envelope.taskId false)
  if !args.priority then create s
  else
    match s.gates args.scope with
    | none => create s
    | some active =>
      match s.inspectOrRecover args active with
      | (s, .recovered) => (s.setDedup key (some active), .admitted false active true)
      | (s, .healthy) => (s.setDedup key (some active), .admitted false active false)
      | (s, .stale) =>
        if s.pausedAuto args.scope = none then create (s.setGate args.scope none)
        else (s.setDedup key (some active), .admitted false active false)

/-- `ENQUEUE_TASK_LUA`. -/
def enqueueTask (s : Broker) (args : EnqueueArgs) : Broker × EnqueueReply :=
  match s.dedup args.envelope.idempotencyKey with
  | none => s.enqueueBehindGate args
  | some existing =>
    match s.inspectOrRecover args existing with
    | (s, .recovered) => (s, .admitted false existing true)
    | (s, .healthy) => (s, .admitted false existing false)
    | (s, .stale) =>
      (s.setDedup args.envelope.idempotencyKey none).enqueueBehindGate args

end Broker

/-- What `enqueue_task_with_card` passes to its script. -/
structure CardEnqueueArgs where
  envelope : TaskEnvelope
  priorityOverAuto : Bool
  cardId : CardId
  openMessageId : String
  ttlSeconds : Nat
  ttlPositive : 0 < ttlSeconds
  senderId : String := ""
  category : String := ""
  selectedCategories : List String := []
  pipelineId : Option Nat := none
  pipelineSha : String := ""
  revision : Option Nat := none
  updatedAt : Time


namespace CardEnqueueArgs

/-- The keys of the request's merge request. -/
def scope (args : CardEnqueueArgs) : MrScope :=
  args.envelope.mr

/-- `is_priority_triage`. -/
def priority (args : CardEnqueueArgs) : Bool :=
  args.priorityOverAuto && isTriageTask args.envelope

/-- The admission context stored with the task. -/
def context (args : CardEnqueueArgs) : AdmissionContext where
  cardId := args.cardId
  openMessageId := args.openMessageId
  category := args.category
  selectedCategories := args.selectedCategories
  pipelineId := args.pipelineId
  pipelineSha := args.pipelineSha
  revision := args.revision
  ttlSeconds := args.ttlSeconds

/-- `allowed_batch_categories`. -/
def allowedBatchCategories : List String :=
  ["format", "clang", "build", "unknown"]

/-- The argument checks at the head of the script; `none` means they pass. -/
def rejection (args : CardEnqueueArgs) : Option (Int × String) :=
  if args.category ≠ "" && (args.pipelineId.isNone || args.revision.isNone) then
    some (-8, "invalid card admission arguments")
  else if args.category = "batch" then
    if args.selectedCategories = [] then some (-10, "empty repair selection")
    else if args.selectedCategories.all (· ∈ allowedBatchCategories) &&
        args.selectedCategories.Nodup then none
    else some (-10, "invalid repair selection")
  else if args.selectedCategories ≠ [] then some (-10, "unexpected repair selection")
  else none

/-- The categories a request must find actionable and then rebinds. -/
def requiredCategories (args : CardEnqueueArgs) : List String :=
  if args.category = "batch" then args.selectedCategories else [args.category]

/-- `categories_match`: only a batch request compares selections. -/
def categoriesMatch (args : CardEnqueueArgs) (stored : List String) : Bool :=
  args.category != "batch" || stored == args.selectedCategories

end CardEnqueueArgs

/-- The item may be taken by `task`: it is pending, failed or already its own. -/
def RepairItem.actionable (task : TaskId) (item : RepairItem) : Bool :=
  item.status == .pending || item.status == .failed || item.taskId == some task

/-- The item fields a queued repair writes. -/
def RepairItem.bind
    (task : TaskId)
    (pipelineId : Nat)
    (pipelineSha : String)
    (item : RepairItem) : RepairItem :=
  { item with
    status := .queued
    taskId := some task
    pipelineId := pipelineId
    pipelineSha := pipelineSha
    statusMarkdown := "已进入修复队列" }

/--
`bind_items`: every required category needs one actionable item, and then all
items of the required categories are bound.
-/
def bindItems
    (args : CardEnqueueArgs)
    (task : TaskId)
    (items : List RepairItem) : Option (List RepairItem) :=
  if args.requiredCategories.all fun category =>
      items.any fun item => item.category.value == category && item.actionable task then
    some (items.map fun item =>
      if item.category.value ∈ args.requiredCategories then
        item.bind task (args.pipelineId.getD 0) args.pipelineSha
      else item)
  else none

/-- What `inspect_candidate` finds. -/
inductive CandidateState where
  | stale
  | conflict
  | incomplete
  | healthy
deriving DecidableEq

/-- The stored context, or the envelope's payload without one, fits the request. -/
def sameRequest (args : CardEnqueueArgs) (stored : TaskHash) (envelope : TaskEnvelope) : Bool :=
  match stored.admissionContext with
  | some context =>
    context.cardId == args.cardId && context.pipelineId == args.pipelineId &&
      context.pipelineSha == args.pipelineSha && context.category == args.category &&
      args.categoriesMatch context.selectedCategories
  | none =>
    envelope.payload.sourcePipelineId == args.pipelineId &&
      envelope.payload.sourcePipelineSha == args.pipelineSha &&
      envelope.payload.repairCategory == args.category &&
      args.categoriesMatch envelope.payload.selectedCategories

/-- `inspect_candidate`. -/
def inspectCandidate (args : CardEnqueueArgs) (stored : TaskHash) : CandidateState :=
  if !stored.exists_ || stored.terminal then .stale
  else
    match stored.payload with
    | none => .conflict
    | some envelope =>
      if envelope.source ≠ "feishu" || envelope.prUrl ≠ args.envelope.prUrl then .conflict
      else if !sameRequest args stored envelope then .conflict
      else if stored.admissionIncomplete then .incomplete
      else .healthy

namespace Broker

/-- The card fields a card-bound repair writes. -/
def boundCard
    (args : CardEnqueueArgs)
    (task : TaskId)
    (items : List RepairItem)
    (revision : Nat)
    (c : CardHash) : CardHash :=
  { c with
    taskId := some task
    activeTaskId := some task
    activeCategory := some args.category
    repairItems := some items
    revision := some revision
    openMessageId := some args.openMessageId
    updatedAt := some args.updatedAt }

/-- The first click on a card records its receiver. -/
def recordReceiver (args : CardEnqueueArgs) (s : Broker) : Broker :=
  s.updCard args.cardId fun c =>
    if c.receiveId.getD "" = "" && args.senderId ≠ "" then
      { c with receiveId := some args.senderId }
    else c

/--
The write sequence of a fresh card admission, in the script's order. A crash
inside the script leaves a prefix of it.
-/
def admissionWrites
    (s : Broker)
    (args : CardEnqueueArgs)
    (items : List RepairItem) : List (Broker → Broker) :=
  let task := args.envelope.taskId
  let revision := (s.cards args.cardId).revision.getD 0 + 1
  [ fun s => s.setDedup args.envelope.idempotencyKey (some task),
    fun s => s.updTask task (preparedTask args.envelope args.context),
    fun s => if args.envelope.mr.isSome then s.addMrTask args.scope task else s,
    fun s => if args.priority then s.setGate args.scope (some task) else s,
    fun s =>
      if args.priority then s.setActiveRepair task (some args.envelope.createdAt) else s,
    fun s => s.pushIngress task,
    fun s => s.updCard args.cardId (boundCard args task items revision),
    recordReceiver args,
    fun s => s.setTaskCard task args.cardId,
    fun s' => s'.updTask task (enqueuedTask s.nextMessageId) ]

/-- Apply writes from left to right. -/
def applyWrites (writes : List (Broker → Broker)) (s : Broker) : Broker :=
  writes.foldl (fun s write => write s) s

/-- The state after an uninterrupted fresh admission. -/
def freshAdmission (s : Broker) (args : CardEnqueueArgs) (items : List RepairItem) : Broker :=
  applyWrites (s.admissionWrites args items) s

section FreshAdmission

variable (s : Broker) (args : CardEnqueueArgs) (items : List RepairItem)

/--
Without a crash the order of the writes does not matter: the task is created
as in the other scripts and the card is bound to it.
-/
theorem freshAdmission_eq :
    s.freshAdmission args items =
      (recordReceiver args
        ((s.startTask args.envelope args.context args.priority).updCard args.cardId
          (boundCard args args.envelope.taskId items
            ((s.cards args.cardId).revision.getD 0 + 1)))).setTaskCard
        args.envelope.taskId args.cardId := by
  unfold freshAdmission applyWrites admissionWrites startTask
  simp only [List.foldl_cons, List.foldl_nil]
  cases args.envelope.mr.isSome <;> cases args.priority <;> rfl

end FreshAdmission

/-- The fresh admission at the end of the card script's category path. -/
def admitFresh (s : Broker) (args : CardEnqueueArgs) : Broker × EnqueueReply :=
  let card := s.cards args.cardId
  match card.activeTaskId with
  | some active => (s, .refused (-6) "" (some active))
  | none =>
    match bindItems args args.envelope.taskId (card.repairItems.getD []) with
    | none => (s, .refused (if args.category = "batch" then -10 else -7) "" none)
    | some items =>
      (s.freshAdmission args items, .admitted true args.envelope.taskId false)

/-- The writes of the card script for a candidate that stopped half-admitted. -/
def completeCandidate (s : Broker) (args : CardEnqueueArgs) (candidate : TaskId) : Broker :=
  let s := s.addMrTask args.scope candidate
  let s :=
    if args.priority then
      (s.setGate args.scope (some candidate)).setActiveRepair candidate
        (some args.envelope.createdAt)
    else s
  let ingressId := s.nextMessageId
  let s := s.pushIngress candidate
  s.updTask candidate fun t =>
    { enqueuedTask ingressId t with
      admissionContext := some args.context
      updatedAt := some args.updatedAt }

/-- The card script on a candidate that exists and is not terminal. -/
def admitCandidate
    (s : Broker)
    (args : CardEnqueueArgs)
    (candidate : TaskId)
    (incomplete : Bool) : Broker × EnqueueReply :=
  let card := s.cards args.cardId
  if card.activeTaskId ≠ none && card.activeTaskId ≠ some candidate then
    (s, .refused (-6) "" card.activeTaskId)
  else
    match bindItems args candidate (card.repairItems.getD []) with
    | none => (s, .refused (if args.category = "batch" then -10 else -7) "" none)
    | some items =>
      let bindingIncomplete :=
        incomplete || card.activeTaskId != some candidate ||
          s.taskCards candidate != some args.cardId
      let s := if incomplete then s.completeCandidate args candidate else s
      let s :=
        if bindingIncomplete then
          s.updCard args.cardId
            (boundCard args candidate items (card.revision.getD 0 + 1))
        else s
      let s := recordReceiver args s
      let s := s.setTaskCard candidate args.cardId
      (s.setDedup args.envelope.idempotencyKey (some candidate),
        .admitted false candidate bindingIncomplete)

/-- The candidate of a card request: the dedup task, else the gate's holder. -/
def cardCandidate (s : Broker) (args : CardEnqueueArgs) : Option TaskId :=
  s.dedup args.envelope.idempotencyKey <|>
    (if args.priority then s.gates args.scope else none)

/-- The card script forgets a candidate that is missing or terminal. -/
def forgetCandidate (s : Broker) (args : CardEnqueueArgs) (candidate : TaskId) : Broker :=
  let s :=
    if s.dedup args.envelope.idempotencyKey = some candidate then
      s.setDedup args.envelope.idempotencyKey none
    else s
  if s.gates args.scope = some candidate && (s.pausedAuto args.scope).isNone then
    s.setGate args.scope none
  else s

/-- The card request was already admitted and owns the card. -/
def idempotentReplay (s : Broker) (args : CardEnqueueArgs) : Bool :=
  match s.dedup args.envelope.idempotencyKey with
  | some replay => (s.cards args.cardId).activeTaskId == some replay
  | none => false

/-- The card still shows the pipeline and revision the request was made for. -/
def cardCurrent (card : CardHash) (args : CardEnqueueArgs) : Bool :=
  some (card.revision.getD 0) == args.revision &&
    card.effectivePipelineId == args.pipelineId &&
    card.effectivePipelineSha == args.pipelineSha

/-- The merge request already shows a newer card. -/
def foreignCard (s : Broker) (args : CardEnqueueArgs) : Bool :=
  match s.latestCard args.scope with
  | some latest => latest != args.cardId
  | none => false

/-- The category path of `ENQUEUE_TASK_WITH_CARD_LUA`. -/
def enqueueCategory (s : Broker) (args : CardEnqueueArgs) : Broker × EnqueueReply :=
  if s.foreignCard args then (s, .refused (-5) "" none)
  else if !cardCurrent (s.cards args.cardId) args && !s.idempotentReplay args then
    (s, .refused (-5) "" none)
  else
    match s.cardCandidate args with
    | none => s.admitFresh args
    | some candidate =>
      match inspectCandidate args (s.tasks candidate) with
      | .conflict => (s, .refused (-6) "" (some candidate))
      | .stale => (s.forgetCandidate args candidate).admitFresh args
      | .incomplete => s.admitCandidate args candidate true
      | .healthy => s.admitCandidate args candidate false

/-- The message and receiver writes shared by the paths without a category. -/
def touchCard (args : CardEnqueueArgs) (task : TaskId) (s : Broker) : Broker :=
  let s := s.updCard args.cardId fun c =>
    { c with
      taskId := some task
      openMessageId := some args.openMessageId
      updatedAt := some args.updatedAt }
  let s := recordReceiver args s
  s.setTaskCard task args.cardId

/-- The new task of a card request without a category. -/
def createCardTask (s : Broker) (args : CardEnqueueArgs) : Broker :=
  s.startTask args.envelope args.context args.priority

/-- The path without a category once the gate is free or unused. -/
def enqueueUncategorized (s : Broker) (args : CardEnqueueArgs) : Broker × EnqueueReply :=
  match s.dedup args.envelope.idempotencyKey with
  | some task =>
    (touchCard args task s, .admitted false task false)
  | none =>
    let task := args.envelope.taskId
    (touchCard args task (s.createCardTask args), .admitted true task false)

/-- The path of `ENQUEUE_TASK_WITH_CARD_LUA` without a category. -/
def enqueueWithoutCategory (s : Broker) (args : CardEnqueueArgs) : Broker × EnqueueReply :=
  let key := args.envelope.idempotencyKey
  match (s.cards args.cardId).taskId with
  | some bound =>
    (touchCard args bound (s.setDedup key (some bound)), .admitted false bound false)
  | none =>
    if !args.priority then s.enqueueUncategorized args
    else
      match s.gates args.scope with
      | none => s.enqueueUncategorized args
      | some active =>
        let stored := s.tasks active
        if (stored.status = none || stored.terminal) && (s.pausedAuto args.scope).isNone then
          (s.setGate args.scope none).enqueueUncategorized args
        else (s.setDedup key (some active), .admitted false active false)

/-- `ENQUEUE_TASK_WITH_CARD_LUA`. -/
def enqueueTaskWithCard (s : Broker) (args : CardEnqueueArgs) : Broker × EnqueueReply :=
  let card := s.cards args.cardId
  match args.rejection with
  | some (code, detail) => (s, .refused code detail none)
  | none =>
    if !card.exists_ then (s, .refused (-1) "" none)
    else if card.mrUrl ≠ some args.envelope.prUrl then (s, .refused (-2) "" none)
    else if card.openMessageId.getD "" ≠ "" &&
        card.openMessageId ≠ some args.openMessageId then (s, .refused (-3) "" none)
    else if card.receiveId.getD "" ≠ "" && args.senderId ≠ "" &&
        card.receiveId ≠ some args.senderId then (s, .refused (-4) "" none)
    else if args.category ≠ "" then s.enqueueCategory args
    else s.enqueueWithoutCategory args

end Broker

/-- What `admit_post_repair_ut` passes to its script. -/
structure PostRepairUtArgs where
  envelope : TaskEnvelope
  mr : MrKey
  envelopeMr : envelope.mr = some mr
  envelopeKind : envelope.kind = .postRepairUt
  repairTask : TaskId
  cardId : CardId
  openMessageId : String
  senderId : String
  pipelineId : Nat
  pipelineSha : String
  revision : Nat
  coverageThreshold : Rat
  coverageBefore : Option Rat
deriving DecidableEq

/-- The admission context of a unit-test task: no category and no lifetime. -/
def PostRepairUtArgs.context (args : PostRepairUtArgs) : AdmissionContext where
  cardId := args.cardId
  openMessageId := args.openMessageId
  pipelineId := some args.pipelineId
  pipelineSha := args.pipelineSha
  revision := some args.revision

/-- The unit-test section a newly admitted task writes to its card. -/
def PostRepairUtArgs.initialState (args : PostRepairUtArgs) : PostRepairUTState where
  status := .queued
  taskId := some args.envelope.taskId
  originRepairTaskId := some args.repairTask
  baselinePipelineId := args.pipelineId
  baselineSha := args.pipelineSha
  coverageBefore := args.coverageBefore
  currentPipelineId := args.pipelineId
  currentSha := args.pipelineSha
  statusMarkdown := "已进入单元测试补充队列"

namespace Broker

/-- The card shows the successful repair that the unit-test request names. -/
def utEligible (card : CardHash) (args : PostRepairUtArgs) : Bool :=
  card.state == some .repairSucceeded && card.taskId == some args.repairTask &&
    card.openMessageId.getD "" == args.openMessageId &&
    card.receiveId.getD "" == args.senderId && card.revision == some args.revision &&
    card.currentPipelineId.getD 0 == args.pipelineId &&
    card.currentPipelineSha.getD "" == args.pipelineSha &&
    (card.postRepairUt.getD {}).status == .idle &&
    (match args.coverageBefore with
      | some coverage => decide (coverage < args.coverageThreshold)
      | none => true) &&
    !(card.repairItems.getD []).isEmpty &&
    (card.repairItems.getD []).all fun item =>
      item.status == .succeeded || item.status == .resolved

/-- The writes of `ADMIT_POST_REPAIR_UT_LUA`; the task always takes the gate. -/
def createPostRepairUt (s : Broker) (args : PostRepairUtArgs) : Broker :=
  let task := args.envelope.taskId
  let s := s.startTask args.envelope args.context true
  let s := s.setTaskCard task args.cardId
  s.updCard args.cardId fun c =>
    { c with
      activeTaskId := some task
      activeCategory := some "unit_test"
      postRepairUt := some args.initialState
      revision := some (args.revision + 1)
      updatedAt := some args.envelope.createdAt }

/-- `ADMIT_POST_REPAIR_UT_LUA`. -/
def admitPostRepairUt (s : Broker) (args : PostRepairUtArgs) : Broker × EnqueueReply :=
  let card := s.cards args.cardId
  if !card.exists_ then (s, .refused (-1) "" none)
  else if s.latestCard (some args.mr) ≠ some args.cardId then (s, .refused (-5) "" none)
  else if !utEligible card args then (s, .refused (-5) "" none)
  else
    match s.dedup args.envelope.idempotencyKey with
    | some existing => (s, .admitted false existing false)
    | none =>
      match s.gates (some args.mr) <|> card.activeTaskId with
      | some holder => (s, .refused (-6) "" (some holder))
      | none => (s.createPostRepairUt args, .admitted true args.envelope.taskId false)

/-- `release_gate` of the reconciler. -/
def releaseGate (s : Broker) (mr : MrKey) (task : TaskId) : Broker :=
  let s := if s.gates (some mr) = some task then s.setGate (some mr) none else s
  let s := s.remMrTask (some mr) task
  s.setActiveRepair task none

/-- The reconciler's item loop. -/
def reconcileItems
    (context : AdmissionContext)
    (task : TaskId)
    (items : List RepairItem) : List RepairItem :=
  items.map fun item =>
    if item.category.value == context.category && item.actionable task then
      item.bind task (context.pipelineId.getD 0) context.pipelineSha
    else item

/-- The item loop changed something. -/
def reconcileMatched
    (context : AdmissionContext)
    (task : TaskId)
    (items : List RepairItem) : Bool :=
  items.any fun item => item.category.value == context.category && item.actionable task

/-- The stored card still fits the admission context. -/
def reconcileCardValid
    (context : AdmissionContext)
    (mr : MrKey)
    (task : TaskId)
    (card : CardHash) : Bool :=
  let contextRevision : Int := context.revision.elim (-1) Int.ofNat
  let cardRevision : Int := card.revision.getD 0
  card.exists_ && card.projectId == some mr.projectId && card.mrIid.getD 0 == mr.iid &&
    decide (0 < context.ttlSeconds) && context.openMessageId != "" && context.category != "" &&
    card.effectivePipelineId == context.pipelineId &&
    card.effectivePipelineSha == context.pipelineSha &&
    (cardRevision == contextRevision ||
      (cardRevision == contextRevision + 1 && card.activeTaskId == some task)) &&
    reconcileMatched context task (card.repairItems.getD [])

/-- The reconciler's card writes. -/
def reconcileCard
    (context : AdmissionContext)
    (task : TaskId)
    (now : Time)
    (card : CardHash) : CardHash :=
  { card with
    taskId := some task
    activeTaskId := some task
    activeCategory := some context.category
    repairItems := some (reconcileItems context task (card.repairItems.getD []))
    revision := some
      (if card.activeTaskId = some task then card.revision.getD 0
       else card.revision.getD 0 + 1)
    openMessageId := some context.openMessageId
    updatedAt := some now }

/-- The reconciler gives an unrecoverable admission up. -/
def failAdmission (s : Broker) (mr : MrKey) (task : TaskId) (now : Time) : Broker :=
  let s := s.updTask task fun t =>
    { t with
      status := some .failed
      error := some "admission_incomplete"
      updatedAt := some now }
  s.releaseGate mr task

/-- The reconciler finishes a half-written admission. -/
def finishAdmission
    (s : Broker)
    (mr : MrKey)
    (task : TaskId)
    (context : AdmissionContext)
    (now : Time) : Broker :=
  let s := s.addMrTask (some mr) task
  let s := s.setActiveRepair task (some now)
  let ingressId := s.nextMessageId
  let s := s.pushIngress task
  let s := s.updTask task fun t => { enqueuedTask ingressId t with updatedAt := some now }
  if context.cardId ≠ "" then
    (s.updCard context.cardId (reconcileCard context task now)).setTaskCard task context.cardId
  else s

/--
`RECONCILE_ADMISSION_GATE_LUA`. The reply is `none` where the script stops
with a Lua error: a payload whose `mr` is null cannot be indexed.
-/
def reconcileAdmissionGate
    (s : Broker)
    (mr : MrKey)
    (task : TaskId)
    (now : Time) : Broker × Option Int :=
  let stored := s.tasks task
  if s.gates (some mr) ≠ some task then (s, some 0)
  else if !stored.exists_ || stored.terminal then (s.releaseGate mr task, some 3)
  else if stored.admissionIncomplete then
    match stored.admissionContext, stored.payload with
    | some context, some envelope =>
      match envelope.mr with
      | none => (s, none)
      | some owner =>
        if owner = mr && (context.cardId = "" ||
            reconcileCardValid context mr task (s.cards context.cardId)) then
          (s.finishAdmission mr task context now, some 1)
        else (s.failAdmission mr task now, some 2)
    | _, _ => (s.failAdmission mr task now, some 2)
  else if task ∉ s.mrTasks (some mr) || (s.activeRepairs task).isNone then
    ((s.addMrTask (some mr) task).setActiveRepair task (some now), some 4)
  else (s, some 0)

end Broker

end MrAgent
