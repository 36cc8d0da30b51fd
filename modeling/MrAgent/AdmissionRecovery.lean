import Mathlib
import MrAgent.BrokerOperation

namespace MrAgent

/-!
# Recovery of interrupted card admissions

A crash inside `ENQUEUE_TASK_WITH_CARD_LUA` leaves a prefix of its writes. Once
the gate is written, `RECONCILE_ADMISSION_GATE_LUA` brings the card, its items
and the task where the whole script does, for a single category of a card that
names the merge request and items that may be taken.
-/

namespace Broker

/-- The state in which a fresh card admission starts to write. -/
def freshBase (s : Broker) (args : CardEnqueueArgs) : Broker :=
  match s.cardCandidate args with
  | some candidate =>
    if inspectCandidate args (s.tasks candidate) = .stale then s.forgetCandidate args candidate
    else s
  | none => s

/-- The items a fresh card admission writes. -/
def boundItems (s : Broker) (args : CardEnqueueArgs) : List RepairItem :=
  (bindItems args args.envelope.taskId ((s.cards args.cardId).repairItems.getD [])).getD []

/-- What a crash leaves after the first writes of a fresh card admission. -/
def interruptedAdmission (s : Broker) (args : CardEnqueueArgs) (writes : Nat) : Broker :=
  applyWrites (((s.freshBase args).admissionWrites args (s.boundItems args)).take writes)
    (s.freshBase args)

/-- The checks an accepted fresh admission has passed, and its result. -/
structure AcceptedAdmission (s : Broker) (args : CardEnqueueArgs) : Prop where
  card : (s.cards args.cardId).exists_ = true
  current : cardCurrent (s.cards args.cardId) args = true
  idle : (s.cards args.cardId).activeTaskId = none
  bound : bindItems args args.envelope.taskId ((s.cards args.cardId).repairItems.getD []) =
    some (s.boundItems args)
  result : (s.enqueueTaskWithCard args).1 =
    (s.freshBase args).freshAdmission args (s.boundItems args)

section Accepted

variable {s : Broker} {args : CardEnqueueArgs}

theorem forgetCandidate_cards (candidate : TaskId) :
    (s.forgetCandidate args candidate).cards = s.cards := by
  unfold forgetCandidate
  dsimp only
  repeat' split
  all_goals rfl

theorem freshBase_cards : (s.freshBase args).cards = s.cards := by
  unfold freshBase
  split
  · split
    · exact forgetCandidate_cards _
    · rfl
  · rfl

variable {recovered : Bool} {task : TaskId}

theorem admitFresh_created
    {base : Broker}
    (cards : base.cards = s.cards)
    (reply : (base.admitFresh args).2 = .admitted true task recovered) :
    (s.cards args.cardId).activeTaskId = none ∧
      bindItems args args.envelope.taskId ((s.cards args.cardId).repairItems.getD []) =
        some (s.boundItems args) ∧
      (base.admitFresh args).1 = base.freshAdmission args (s.boundItems args) := by
  unfold admitFresh at reply ⊢
  rw [cards] at reply ⊢
  dsimp only at reply ⊢
  cases idle : (s.cards args.cardId).activeTaskId with
  | some active =>
      simp [idle] at reply
  | none =>
      simp only [idle] at reply ⊢
      cases bound : bindItems args args.envelope.taskId
          ((s.cards args.cardId).repairItems.getD []) with
      | none =>
          simp [bound] at reply
      | some items =>
          simp [boundItems, bound]

theorem admitCandidate_not_created
    {candidate task : TaskId}
    {incomplete recovered : Bool} :
    (s.admitCandidate args candidate incomplete).2 ≠ .admitted true task recovered := by
  unfold admitCandidate
  dsimp only
  split
  · simp
  split
  · simp
  · simp

theorem enqueueTaskWithCard_category
    {created recovered : Bool}
    (category : args.category ≠ "")
    (reply : (s.enqueueTaskWithCard args).2 = .admitted created task recovered) :
    (s.cards args.cardId).exists_ = true ∧
      s.enqueueTaskWithCard args = s.enqueueCategory args := by
  unfold enqueueTaskWithCard at reply ⊢
  dsimp only at reply ⊢
  cases rejection : args.rejection with
  | some rejected =>
      simp [rejection] at reply
  | none =>
      simp only [rejection] at reply ⊢
      split at reply
      · cases reply
      rename_i present
      rw [if_neg present]
      split at reply
      · cases reply
      rename_i url
      rw [if_neg url]
      split at reply
      · cases reply
      rename_i message
      rw [if_neg message]
      split at reply
      · cases reply
      rename_i sender
      rw [if_neg sender, if_pos category]
      exact ⟨by simpa using present, rfl⟩

theorem enqueueCategory_created
    (reply : (s.enqueueCategory args).2 = .admitted true task recovered) :
    (cardCurrent (s.cards args.cardId) args = true ∨ s.idempotentReplay args = true) ∧
      (s.enqueueCategory args).1 = ((s.freshBase args).admitFresh args).1 ∧
      ((s.freshBase args).admitFresh args).2 = .admitted true task recovered := by
  unfold enqueueCategory at reply ⊢
  split at reply
  · cases reply
  rename_i own
  rw [if_neg own]
  split at reply
  · cases reply
  rename_i fits
  rw [if_neg fits]
  have current :
      cardCurrent (s.cards args.cardId) args = true ∨ s.idempotentReplay args = true := by
    simp only [Bool.and_eq_true, Bool.not_eq_true', not_and, Bool.not_eq_false] at fits
    cases current : cardCurrent (s.cards args.cardId) args with
    | true =>
        exact Or.inl rfl
    | false =>
        exact Or.inr (fits current)
  refine ⟨current, ?_⟩
  unfold freshBase
  cases found : s.cardCandidate args with
  | none =>
      simp only [found] at reply ⊢
      exact ⟨trivial, reply⟩
  | some candidate =>
      simp only [found] at reply ⊢
      cases inspected : inspectCandidate args (s.tasks candidate) with
      | stale =>
          simp only [inspected, if_true] at reply ⊢
          exact ⟨trivial, reply⟩
      | conflict =>
          simp [inspected] at reply
      | incomplete =>
          simp only [inspected] at reply
          exact absurd reply admitCandidate_not_created
      | healthy =>
          simp only [inspected] at reply
          exact absurd reply admitCandidate_not_created

theorem acceptedAdmission_of_created
    (category : args.category ≠ "")
    (reply : (s.enqueueTaskWithCard args).2 = .admitted true task recovered) :
    s.AcceptedAdmission args := by
  obtain ⟨present, path⟩ := enqueueTaskWithCard_category category reply
  rw [path] at reply
  obtain ⟨fits, result, fresh⟩ := enqueueCategory_created reply
  obtain ⟨idle, bound, written⟩ := admitFresh_created freshBase_cards fresh
  refine ⟨present, ?_, idle, bound, ?_⟩
  · refine fits.resolve_right ?_
    intro replayed
    unfold idempotentReplay at replayed
    rw [idle] at replayed
    split at replayed
    · simp at replayed
    · cases replayed
  · rw [path, result, written]

end Accepted

section Interrupted

variable {s : Broker} {args : CardEnqueueArgs} {writes : Nat}

theorem interruptedAdmission_task
    (priority : args.priority = true)
    (gateWritten : 4 ≤ writes)
    (unmarked : writes ≤ 9) :
    (s.interruptedAdmission args writes).tasks args.envelope.taskId =
        preparedTask args.envelope args.context
          ((s.freshBase args).tasks args.envelope.taskId) ∧
      (s.interruptedAdmission args writes).gates args.scope = some args.envelope.taskId := by
  unfold interruptedAdmission admissionWrites applyWrites
  interval_cases writes <;> cases args.envelope.mr.isSome <;>
    simp [priority, recordReceiver]

theorem interruptedAdmission_card_early
    (priority : args.priority = true)
    (gateWritten : 4 ≤ writes)
    (cardUnwritten : writes ≤ 6) :
    (s.interruptedAdmission args writes).cards args.cardId = s.cards args.cardId := by
  have cards : (s.freshBase args).cards = s.cards := freshBase_cards
  unfold interruptedAdmission admissionWrites applyWrites
  interval_cases writes <;> cases args.envelope.mr.isSome <;> simp [priority, cards]

theorem interruptedAdmission_card_late
    (priority : args.priority = true)
    (cardWritten : 7 ≤ writes)
    (unmarked : writes ≤ 9) :
    ∃ receiver, (s.interruptedAdmission args writes).cards args.cardId =
      { boundCard args args.envelope.taskId (s.boundItems args)
          ((s.cards args.cardId).revision.getD 0 + 1) (s.cards args.cardId) with
        receiveId := receiver } := by
  have cards : (s.freshBase args).cards = s.cards := freshBase_cards
  have received :
      ∀ card : CardHash, ∃ receiver,
        (if card.receiveId.getD "" = "" && args.senderId ≠ "" then
          { card with receiveId := some args.senderId } else card) =
          { card with receiveId := receiver } := by
    intro card
    split
    · exact ⟨_, rfl⟩
    · exact ⟨card.receiveId, rfl⟩
  obtain ⟨receiver, written⟩ := received
    (boundCard args args.envelope.taskId (s.boundItems args)
      ((s.cards args.cardId).revision.getD 0 + 1) (s.cards args.cardId))
  unfold interruptedAdmission admissionWrites applyWrites
  interval_cases writes
  · refine ⟨(s.cards args.cardId).receiveId, ?_⟩
    cases args.envelope.mr.isSome <;> simp [priority, cards, boundCard]
  · refine ⟨receiver, ?_⟩
    cases args.envelope.mr.isSome <;> simp [priority, cards, recordReceiver, ← written]
  · refine ⟨receiver, ?_⟩
    cases args.envelope.mr.isSome <;> simp [priority, cards, recordReceiver, ← written]

end Interrupted

theorem reconcileAdmissionGate_prepared
    {s : Broker}
    {args : CardEnqueueArgs}
    {mr : MrKey}
    {old : TaskHash}
    (scope : args.envelope.mr = some mr)
    (card : args.cardId ≠ "")
    (gate : s.gates (some mr) = some args.envelope.taskId)
    (task : s.tasks args.envelope.taskId = preparedTask args.envelope args.context old)
    (now : Time) :
    (s.reconcileAdmissionGate mr args.envelope.taskId now).1 =
      if reconcileCardValid args.context mr args.envelope.taskId (s.cards args.cardId) then
        s.finishAdmission mr args.envelope.taskId args.context now
      else s.failAdmission mr args.envelope.taskId now := by
  have present : (preparedTask args.envelope args.context old).exists_ = true := by
    rw [TaskHash.exists_, decide_eq_true_eq]
    intro empty
    have payload := congrArg TaskHash.payload empty
    cases payload
  have unfinished : (preparedTask args.envelope args.context old).terminal = false := rfl
  have incomplete : (preparedTask args.envelope args.context old).admissionIncomplete = true :=
    rfl
  have named : (args.context.cardId = "") = False := eq_false card
  have context :
      (preparedTask args.envelope args.context old).admissionContext = some args.context := rfl
  have payload :
      (preparedTask args.envelope args.context old).payload = some args.envelope := rfl
  unfold reconcileAdmissionGate
  rw [task]
  simp only [gate, present, unfinished, incomplete, context, payload, scope, named,
    ne_eq, not_true_eq_false, if_false, Bool.not_true, Bool.or_self, Bool.false_eq_true,
    if_true, decide_true, decide_false, Bool.false_or, Bool.true_and]
  exact apply_ite Prod.fst _ _ _

end Broker

/-! ## Items -/

section Items

variable {args : CardEnqueueArgs} {items bound : List RepairItem}

theorem reconcileMatched_batch (task : TaskId) (context : AdmissionContext)
    (batch : context.category = "batch") :
    Broker.reconcileMatched context task items = false := by
  unfold Broker.reconcileMatched
  rw [List.any_eq_false]
  intro item _
  rw [batch]
  cases item.category <;> simp [RepairCategory.value]

variable (task : TaskId)

theorem bindItems_single
    (single : args.category ≠ "batch")
    (accepted : bindItems args task items = some bound) :
    (∃ item ∈ items, item.category.value = args.category ∧ item.actionable task = true) ∧
      bound = items.map fun item =>
        if item.category.value = args.category then
          item.bind task (args.pipelineId.getD 0) args.pipelineSha
        else item := by
  unfold bindItems at accepted
  simp only [CardEnqueueArgs.requiredCategories, if_neg single, List.all_cons, List.all_nil,
    Bool.and_true, List.mem_singleton, List.any_eq_true, Bool.and_eq_true, beq_iff_eq] at accepted
  split at accepted
  · rename_i matched
    exact ⟨matched, (Option.some.inj accepted).symm⟩
  · cases accepted

theorem RepairItem.bind_actionable
    (task : TaskId) (pipelineId : Nat) (pipelineSha : String) (item : RepairItem) :
    (item.bind task pipelineId pipelineSha).actionable task = true := by
  simp [RepairItem.bind, RepairItem.actionable]

theorem RepairItem.bind_bind
    (task : TaskId) (pipelineId : Nat) (pipelineSha : String) (item : RepairItem) :
    (item.bind task pipelineId pipelineSha).bind task pipelineId pipelineSha =
      item.bind task pipelineId pipelineSha := rfl

theorem reconcileItems_bound
    (single : args.category ≠ "batch")
    (accepted : bindItems args task items = some bound) :
    Broker.reconcileItems args.context task bound = bound := by
  obtain ⟨_, rfl⟩ := bindItems_single task single accepted
  unfold Broker.reconcileItems
  rw [List.map_map]
  refine List.map_congr_left ?_
  intro item _
  by_cases category : item.category.value = args.category
  · simp [CardEnqueueArgs.context, category, RepairItem.bind_bind]
  · simp [CardEnqueueArgs.context, category]

/--
On an unwritten card the reconciler binds the same items as the admission
exactly if every item of the category may be taken.
-/
theorem reconcileItems_eq_bound_iff
    (single : args.category ≠ "batch")
    (accepted : bindItems args task items = some bound) :
    Broker.reconcileItems args.context task items = bound ↔
      ∀ item ∈ items, item.category.value = args.category → item.actionable task = true := by
  obtain ⟨_, rfl⟩ := bindItems_single task single accepted
  unfold Broker.reconcileItems
  rw [List.map_inj_left]
  refine forall₂_congr fun item _ => ?_
  by_cases category : item.category.value = args.category
  · cases free : item.actionable task with
    | true =>
        simp [CardEnqueueArgs.context, category]
    | false =>
        have moved : item ≠ item.bind task (args.pipelineId.getD 0) args.pipelineSha := by
          intro same
          have taken := RepairItem.bind_actionable task (args.pipelineId.getD 0)
            args.pipelineSha item
          rw [← same, free] at taken
          cases taken
        simpa [CardEnqueueArgs.context, category, free] using moved
  · simp [CardEnqueueArgs.context, category]

theorem reconcileMatched_single
    (single : args.category ≠ "batch")
    (accepted : bindItems args task items = some bound) :
    Broker.reconcileMatched args.context task items = true ∧
      Broker.reconcileMatched args.context task bound = true := by
  obtain ⟨⟨item, member, category, free⟩, rfl⟩ := bindItems_single task single accepted
  unfold Broker.reconcileMatched
  simp only [List.any_eq_true, Bool.and_eq_true, beq_iff_eq]
  refine ⟨⟨item, member, category, free⟩, ?_⟩
  refine ⟨item.bind task (args.pipelineId.getD 0) args.pipelineSha, ?_, category,
    RepairItem.bind_actionable ..⟩
  rw [List.mem_map]
  exact ⟨item, member, by simp [category]⟩

end Items

/-! ## The card after a crash -/

/--
What the reconciler finds in the card after a crash: the pipeline of the
request, the revision before or after the card write, and items to bind.
-/
structure CutCard (s : Broker) (args : CardEnqueueArgs) (card : CardHash) : Prop where
  present : card.exists_ = true
  project : card.projectId = (s.cards args.cardId).projectId
  mrIid : card.mrIid = (s.cards args.cardId).mrIid
  pipelineId : card.effectivePipelineId = args.pipelineId
  pipelineSha : card.effectivePipelineSha = args.pipelineSha
  revision :
    (card.activeTaskId = none ∧
        card.revision.getD 0 = (s.cards args.cardId).revision.getD 0) ∨
      (card.activeTaskId = some args.envelope.taskId ∧
        card.revision.getD 0 = (s.cards args.cardId).revision.getD 0 + 1)
  matched : args.category ≠ "batch" →
    Broker.reconcileMatched args.context args.envelope.taskId (card.repairItems.getD []) = true

section CutCard

variable {s : Broker} {args : CardEnqueueArgs} {mr : MrKey} {card : CardHash}

theorem CutCard.early
    (accepted : s.AcceptedAdmission args) :
    CutCard s args (s.cards args.cardId) := by
  have current := accepted.current
  simp only [Broker.cardCurrent, Bool.and_eq_true, beq_iff_eq] at current
  refine ⟨accepted.card, rfl, rfl, current.1.2, current.2, Or.inl ⟨accepted.idle, rfl⟩, ?_⟩
  intro single
  exact (reconcileMatched_single _ single accepted.bound).1

theorem CutCard.late
    {receiver : Option String}
    (accepted : s.AcceptedAdmission args)
    (written : card =
      { Broker.boundCard args args.envelope.taskId (s.boundItems args)
          ((s.cards args.cardId).revision.getD 0 + 1) (s.cards args.cardId) with
        receiveId := receiver }) :
    CutCard s args card := by
  have current := accepted.current
  simp only [Broker.cardCurrent, Bool.and_eq_true, beq_iff_eq] at current
  subst card
  refine ⟨?_, rfl, rfl, current.1.2, current.2, Or.inr ⟨rfl, rfl⟩, ?_⟩
  · rw [CardHash.exists_, decide_eq_true_eq]
    intro empty
    have active := congrArg CardHash.activeTaskId empty
    cases active
  · intro single
    exact (reconcileMatched_single _ single accepted.bound).2

theorem CutCard.valid_iff
    (cut : CutCard s args card)
    (accepted : s.AcceptedAdmission args)
    (category : args.category ≠ "")
    (message : args.openMessageId ≠ "") :
    Broker.reconcileCardValid args.context mr args.envelope.taskId card = true ↔
      args.category ≠ "batch" ∧ (s.cards args.cardId).projectId = some mr.projectId ∧
        (s.cards args.cardId).mrIid.getD 0 = mr.iid := by
  have current := accepted.current
  simp only [Broker.cardCurrent, Bool.and_eq_true, beq_iff_eq] at current
  have revision :
      (((card.revision.getD 0 : Nat) : Int) ==
          args.context.revision.elim (-1) Int.ofNat ||
        (((card.revision.getD 0 : Nat) : Int) ==
            args.context.revision.elim (-1) Int.ofNat + 1 &&
          card.activeTaskId == some args.envelope.taskId)) = true := by
    have requested : args.context.revision = some ((s.cards args.cardId).revision.getD 0) :=
      current.1.1.symm
    rw [requested]
    rcases cut.revision with ⟨_, same⟩ | ⟨active, next⟩
    · simp [same]
    · simp [active, next]
  constructor
  · intro valid
    simp only [Broker.reconcileCardValid, Bool.and_eq_true, beq_iff_eq] at valid
    refine ⟨?_, ?_, ?_⟩
    · intro batch
      rw [reconcileMatched_batch _ args.context batch] at valid
      exact absurd valid.2 (by decide)
    · rw [← cut.project]
      exact valid.1.1.1.1.1.1.1.1.2
    · rw [← cut.mrIid]
      exact valid.1.1.1.1.1.1.1.2
  · rintro ⟨single, project, iid⟩
    rw [← cut.project] at project
    rw [← cut.mrIid] at iid
    have matched := cut.matched single
    have positive := args.ttlPositive
    unfold Broker.reconcileCardValid
    simp only [cut.present, project, iid, cut.pipelineId, cut.pipelineSha, matched, revision,
      beq_self_eq_true, Bool.and_true, Bool.true_and]
    simp [CardEnqueueArgs.context, positive, message, category]

end CutCard

/-- The recovered state shows the card, the binding and the queued task of the whole one. -/
structure RecoversAdmission (args : CardEnqueueArgs) (recovered whole : Broker) : Prop where
  items : (recovered.cards args.cardId).repairItems = (whole.cards args.cardId).repairItems
  taskId : (recovered.cards args.cardId).taskId = (whole.cards args.cardId).taskId
  activeTaskId :
    (recovered.cards args.cardId).activeTaskId = (whole.cards args.cardId).activeTaskId
  activeCategory :
    (recovered.cards args.cardId).activeCategory = (whole.cards args.cardId).activeCategory
  revision : (recovered.cards args.cardId).revision = (whole.cards args.cardId).revision
  binding : recovered.taskCards args.envelope.taskId = whole.taskCards args.envelope.taskId
  queued : (recovered.tasks args.envelope.taskId).status = some .queued
  ingress : args.envelope.taskId ∈ recovered.ingress.map Prod.snd

variable {args : CardEnqueueArgs}

variable {s : Broker}

theorem Broker.AcceptedAdmission.whole
    (accepted : s.AcceptedAdmission args) :
    (∃ receiver, (s.enqueueTaskWithCard args).1.cards args.cardId =
        { Broker.boundCard args args.envelope.taskId (s.boundItems args)
            ((s.cards args.cardId).revision.getD 0 + 1) (s.cards args.cardId) with
          receiveId := receiver }) ∧
      (s.enqueueTaskWithCard args).1.taskCards args.envelope.taskId = some args.cardId := by
  rw [accepted.result, Broker.freshAdmission_eq]
  refine ⟨?_, by simp⟩
  simp only [Broker.recordReceiver, Broker.setTaskCard_cards, Broker.updCard_cards,
    Broker.startTask_cards, Broker.freshBase_cards, Function.update_self]
  split
  · exact ⟨_, rfl⟩
  · exact ⟨(s.cards args.cardId).receiveId, rfl⟩

/--
If the reconciler accepts the card after a crash, it recovers the admission
exactly when it binds the same items.
-/
theorem recoversAdmission_iff
    {mr : MrKey}
    {middle : Broker}
    {old : TaskHash}
    (accepted : s.AcceptedAdmission args)
    (card : args.cardId ≠ "")
    (cut : CutCard s args (middle.cards args.cardId))
    (task : middle.tasks args.envelope.taskId = preparedTask args.envelope args.context old)
    (now : Time) :
    RecoversAdmission args (middle.finishAdmission mr args.envelope.taskId args.context now)
        (s.enqueueTaskWithCard args).1 ↔
      Broker.reconcileItems args.context args.envelope.taskId
        ((middle.cards args.cardId).repairItems.getD []) = s.boundItems args := by
  obtain ⟨⟨receiver, wholeCard⟩, wholeBinding⟩ := accepted.whole
  have named : args.context.cardId ≠ "" := card
  have finishedCard :
      (middle.finishAdmission mr args.envelope.taskId args.context now).cards args.cardId =
        Broker.reconcileCard args.context args.envelope.taskId now
          (middle.cards args.cardId) := by
    rw [Broker.finishAdmission, if_pos named]
    simp [CardEnqueueArgs.context]
  have revision :
      (if (middle.cards args.cardId).activeTaskId = some args.envelope.taskId then
          (middle.cards args.cardId).revision.getD 0
        else (middle.cards args.cardId).revision.getD 0 + 1) =
        (s.cards args.cardId).revision.getD 0 + 1 := by
    rcases cut.revision with ⟨idle, same⟩ | ⟨active, next⟩
    · simp [idle, same]
    · simp [active, next]
  constructor
  · intro recovers
    have items := recovers.items
    rw [finishedCard, wholeCard] at items
    exact Option.some.inj items
  · intro items
    refine ⟨?_, ?_, ?_, ?_, ?_, ?_, ?_, ?_⟩
    · rw [finishedCard, wholeCard]
      exact congrArg some items
    · rw [finishedCard, wholeCard]
      rfl
    · rw [finishedCard, wholeCard]
      rfl
    · rw [finishedCard, wholeCard]
      rfl
    · rw [finishedCard, wholeCard]
      exact congrArg some revision
    · rw [wholeBinding, Broker.finishAdmission, if_pos named]
      simp [CardEnqueueArgs.context]
    · rw [Broker.finishAdmission, if_pos named]
      simp [task, enqueuedTask, preparedTask]
    · rw [Broker.finishAdmission, if_pos named]
      simp

theorem not_recoversAdmission_of_failed
    {middle whole : Broker}
    (mr : MrKey)
    (now : Time) :
    ¬RecoversAdmission args (middle.failAdmission mr args.envelope.taskId now) whole := by
  intro recovers
  have queued := recovers.queued
  have status :
      ((middle.failAdmission mr args.envelope.taskId now).tasks args.envelope.taskId).status =
        some .failed := by
    unfold Broker.failAdmission Broker.releaseGate
    dsimp only
    split <;> simp
  rw [status] at queued
  cases queued

/-- A cut card admission is completed by the reconciler exactly if the request names one category,
the card names the merge request, and the items are bound or may be taken. -/
theorem admission_recovery_iff
    {s : Broker}
    {args : CardEnqueueArgs}
    {mr : MrKey}
    {writes : Nat}
    {recovered : Bool}
    (category : args.category ≠ "")
    (card : args.cardId ≠ "")
    (message : args.openMessageId ≠ "")
    (scope : args.envelope.mr = some mr)
    (priority : args.priority = true)
    (reply :
      (s.enqueueTaskWithCard args).2 = .admitted true args.envelope.taskId recovered)
    (gateWritten : 4 ≤ writes)
    (unmarked : writes ≤ 9)
    (now : Time) :
    s.interruptedAdmission args 10 = (s.enqueueTaskWithCard args).1 ∧
      (RecoversAdmission args
          ((s.interruptedAdmission args writes).reconcileAdmissionGate mr
            args.envelope.taskId now).1
          (s.enqueueTaskWithCard args).1 ↔
        args.category ≠ "batch" ∧ (s.cards args.cardId).projectId = some mr.projectId ∧
          (s.cards args.cardId).mrIid.getD 0 = mr.iid ∧
          (7 ≤ writes ∨ ∀ item ∈ (s.cards args.cardId).repairItems.getD [],
            item.category.value = args.category →
              item.actionable args.envelope.taskId = true)) := by
  have accepted := Broker.acceptedAdmission_of_created category reply
  refine ⟨accepted.result.symm, ?_⟩
  obtain ⟨task, gate⟩ := Broker.interruptedAdmission_task (s := s) priority gateWritten unmarked
  rw [CardEnqueueArgs.scope, scope] at gate
  rw [Broker.reconcileAdmissionGate_prepared scope card gate task now]
  -- Both cuts of the card reduce the recovery to the items it binds.
  have recovers :
      ∀ cut : CutCard s args ((s.interruptedAdmission args writes).cards args.cardId),
        RecoversAdmission args
            (if Broker.reconcileCardValid args.context mr args.envelope.taskId
                ((s.interruptedAdmission args writes).cards args.cardId) then
              (s.interruptedAdmission args writes).finishAdmission mr args.envelope.taskId
                args.context now
            else
              (s.interruptedAdmission args writes).failAdmission mr args.envelope.taskId now)
            (s.enqueueTaskWithCard args).1 ↔
          (args.category ≠ "batch" ∧ (s.cards args.cardId).projectId = some mr.projectId ∧
              (s.cards args.cardId).mrIid.getD 0 = mr.iid) ∧
            Broker.reconcileItems args.context args.envelope.taskId
              (((s.interruptedAdmission args writes).cards args.cardId).repairItems.getD []) =
                s.boundItems args := by
    intro cut
    rw [← cut.valid_iff accepted category message]
    split
    · rename_i valid
      rw [recoversAdmission_iff accepted card cut task now]
      simp [valid]
    · rename_i invalid
      simp [invalid, not_recoversAdmission_of_failed]
  by_cases late : 7 ≤ writes
  · obtain ⟨receiver, written⟩ :=
      Broker.interruptedAdmission_card_late (s := s) priority late unmarked
    rw [recovers (CutCard.late accepted written)]
    have items : ((s.interruptedAdmission args writes).cards args.cardId).repairItems.getD [] =
        s.boundItems args := by
      rw [written]
      rfl
    rw [items]
    constructor
    · rintro ⟨⟨single, project, iid⟩, _⟩
      exact ⟨single, project, iid, Or.inl late⟩
    · rintro ⟨single, project, iid, _⟩
      exact ⟨⟨single, project, iid⟩, reconcileItems_bound _ single accepted.bound⟩
  · have early := Broker.interruptedAdmission_card_early (s := s) priority gateWritten
      (by omega : writes ≤ 6)
    rw [recovers (early ▸ CutCard.early accepted), early]
    constructor
    · rintro ⟨⟨single, project, iid⟩, items⟩
      exact ⟨single, project, iid,
        Or.inr ((reconcileItems_eq_bound_iff _ single accepted.bound).mp items)⟩
    · rintro ⟨single, project, iid, free⟩
      exact ⟨⟨single, project, iid⟩,
        (reconcileItems_eq_bound_iff _ single accepted.bound).mpr (free.resolve_left late)⟩

namespace InterruptedClick

/-- The state with the card of the failed pipeline. -/
def saved : Broker :=
  (Broker.empty.saveTriageCard Sample.mr "card" 11 Sample.card).1

/-- The first click on a button of the card. -/
def click (category : String) (selected : List String) : CardEnqueueArgs :=
  Sample.click Sample.repair category selected 0

/-- The state the reconciler leaves when the script stopped right after the gate. -/
def reconciled (args : CardEnqueueArgs) : Broker :=
  ((saved.interruptedAdmission args 4).reconcileAdmissionGate Sample.mr Sample.repair 2).1

end InterruptedClick

open InterruptedClick in
theorem format_admission_recovered :
    RecoversAdmission (click "format" []) (reconciled (click "format" []))
      (saved.enqueueTaskWithCard (click "format" [])).1 := by
  have reply : (saved.enqueueTaskWithCard (click "format" [])).2 =
      .admitted true Sample.repair false := by
    decide +kernel
  have scope : (click "format" []).envelope.mr = some Sample.mr := rfl
  have afterGate : 4 ≤ 4 := Nat.le_refl 4
  have recovery := admission_recovery_iff (by decide) (by decide) (by decide) scope
    (by decide +kernel) reply afterGate (by decide) 2
  refine recovery.2.mpr ⟨by decide, by decide +kernel, by decide +kernel, Or.inr ?_⟩
  decide +kernel

open InterruptedClick in
/-- A click on both categories that is cut right after the gate is given up: the reconciler looks
for items of category `batch`, fails the task and frees the gate. -/
theorem batch_admission_lost :
    (saved.enqueueTaskWithCard (click "batch" ["format", "build"])).2 =
        .admitted true Sample.repair false ∧
      ((reconciled (click "batch" ["format", "build"])).tasks Sample.repair).status =
        some .failed ∧
      (reconciled (click "batch" ["format", "build"])).gates (some Sample.mr) = none ∧
      ¬RecoversAdmission (click "batch" ["format", "build"])
        (reconciled (click "batch" ["format", "build"]))
        (saved.enqueueTaskWithCard (click "batch" ["format", "build"])).1 := by
  have failed :
      ((reconciled (click "batch" ["format", "build"])).tasks Sample.repair).status =
        some .failed := by
    decide +kernel
  refine ⟨by decide +kernel, failed, by decide +kernel, ?_⟩
  intro recovers
  have queued := recovers.queued
  change ((reconciled (click "batch" ["format", "build"])).tasks Sample.repair).status =
    some .queued at queued
  rw [failed] at queued
  cases queued

end MrAgent
