import MrAgent.CardFrame

namespace MrAgent

open TransitionSystem

/-!
# Card revisions

Clicks on a triage card are accepted by comparing revisions, so a revision
must never name two contents of one card. Four broker calls read the card in
Python and write it later; here the read and the write are two steps of the
process that makes the call, and any other operation may run in between.
`left` records the revision each operation left on a card it changed.
-/

/-- The card that `get_task_triage_card` returned to one process. -/
structure CardRead where
  task : TaskId
  cardId : CardId
  card : CardHash
deriving DecidableEq

/-- `binding.revision`. -/
def CardRead.revision (read : CardRead) : Nat :=
  read.card.revision.getD 0

/-- `get_task_triage_card`: the card bound to the task, if both keys exist. -/
def Broker.getTaskTriageCard (s : Broker) (task : TaskId) : Option CardRead :=
  (s.taskCards task).bind fun cardId =>
    if (s.cards cardId).exists_ then some ⟨task, cardId, s.cards cardId⟩ else none

theorem Broker.getTaskTriageCard_some
    {s : Broker} {task : TaskId} {read : CardRead}
    (bound : s.getTaskTriageCard task = some read) :
    s.taskCards task = some read.cardId ∧ s.cards read.cardId = read.card := by
  unfold getTaskTriageCard at bound
  obtain ⟨cardId, stored, found⟩ := Option.bind_eq_some_iff.mp bound
  split at found
  · cases found
    exact ⟨stored, rfl⟩
  · cases found

/-- The items of `finalize_repair_cancel`: the task's own items fail. -/
def canceledItems (task : TaskId) (items : List RepairItem) : List RepairItem :=
  items.map fun item =>
    if item.taskId = some task then
      { item with status := .failed, statusMarkdown := "修复已取消" }
    else item

/--
The second half of a call that read its card in Python. The terminal calls
look the card up once more, so they name it themselves.
-/
inductive CardWrite where
  | reconcile (cardId : CardId) (items : List RepairItem) (state : TriageCardState)
      (statusMarkdown : String) (pipelineId : Nat) (pipelineSha : String)
      (postRepairUt : Option PostRepairUTState) (notification : NotificationEnvelope) (now : Time)
  | correctLate (cardId : CardId) (expectedStatus : TaskStatus) (repairState : PipelineRepairState)
      (items : List RepairItem) (statusMarkdown : String) (pipelineId : Nat) (pipelineSha : String)
      (notification : NotificationEnvelope) (now : Time)
  | finalizeCancel (mr : MrKey) (lease : Option MrLease) (statusMarkdown : String)
      (notification : NotificationEnvelope) (now : Time)
  | publishEligibility (manifest : RepairCommitManifest) (valid : manifest.validateStatic = .ok ())
      (now : Time)

/-- The broker call that a process makes from the card it had read. -/
def CardWrite.op (read : CardRead) : CardWrite → Op
  | .reconcile cardId items state statusMarkdown pipelineId pipelineSha ut notification now =>
    .card (.reconcile read.task cardId read.revision
      { items := items
        state := state
        statusMarkdown := statusMarkdown
        currentPipelineId := pipelineId
        currentPipelineSha := pipelineSha
        revision := read.revision + 1
        postRepairUt := ut } notification now)
  | .correctLate cardId status repairState items statusMarkdown pipelineId pipelineSha
      notification now =>
    .card (.correctLate read.task cardId
      { expectedStatus := status
        repairState := repairState
        expectedStates := [.pipelineFailed, .repairFailed]
        expectedRevision := read.revision
        items := items
        statusMarkdown := statusMarkdown
        currentPipelineId := pipelineId
        currentPipelineSha := pipelineSha } notification now)
  | .finalizeCancel mr lease statusMarkdown notification now =>
    .task (.finalizeCancel read.task lease
      { mr := mr
        cardId := read.cardId
        items := canceledItems read.task (read.card.repairItems.getD [])
        statusMarkdown := statusMarkdown
        revision := read.revision + 1
        notification := notification } now)
  | .publishEligibility manifest _ now =>
    .card (.publishEligibility read.task read.cardId manifest.entries.length (read.revision + 1)
      now)

namespace Op

/-- The calls that write a card's revision. -/
def revises : Op → Bool
  | admission (.enqueueWithCard _) | admission (.postRepairUt _) => true
  | admission (.reconcile ..) => true
  | rollback (.admitRollback ..) | rollback (.complete ..) => true
  | task (.requestUtCancel ..) | task (.finalizeCancel ..) => true
  | card (.reconcile ..) | card (.correctLate ..) => true
  | card (.updateUt ..) | card (.publishEligibility ..) => true
  | _ => false

/-- The calls whose write is the second half of a read in Python. -/
def readsFirst : Op → Bool
  | task (.finalizeCancel ..) => true
  | card (.reconcile ..) | card (.correctLate ..) | card (.publishEligibility ..) => true
  | _ => false

/-- A card hash runs out of time. -/
def expiresCard : Op → Bool
  | expiry (.card _) => true
  | _ => false

end Op

/-- The broker, the cards its processes have read, and the revisions left so far. -/
structure RevisionRun where
  broker : Broker
  reads : Nat → Option CardRead
  left : CardId → List Nat

/-- A step of a process, or any other broker call. -/
inductive RevisionOp where
  | call (op : Op)
  | read (process : Nat) (task : TaskId)
  | write (process : Nat) (write : CardWrite)

namespace RevisionRun

/-- No process has read a card yet. -/
def start (s : Broker) : RevisionRun where
  broker := s
  reads := fun _ => none
  left := fun _ => []

/-- The stored revision of a card; an absent one reads as zero. -/
def revision (r : RevisionRun) (cardId : CardId) : Nat :=
  (r.broker.cards cardId).revision.getD 0

/-- Run a broker call and record the revision it leaves on a card it changed. -/
def perform (r : RevisionRun) (op : Op) : RevisionRun :=
  let after := r.broker.step op
  { r with
    broker := after
    left := fun cardId =>
      if op.revises && decide (after.cards cardId ≠ r.broker.cards cardId) then
        r.left cardId ++ [(after.cards cardId).revision.getD 0]
      else r.left cardId }

/-- One step; a process that has read nothing writes nothing. -/
def step (r : RevisionRun) : RevisionOp → RevisionRun
  | .call op => r.perform op
  | .read process task =>
    { r with reads := Function.update r.reads process (r.broker.getTaskTriageCard task) }
  | .write process write =>
    match r.reads process with
    | none => r
    | some read =>
      { r.perform (write.op read) with reads := Function.update r.reads process none }

end RevisionRun

/-- The four read-then-write calls run in two steps, and card keys do not expire. -/
def RevisionOp.scheduled : RevisionOp → Bool
  | .call op => !op.readsFirst && !op.expiresCard
  | .read .. => true
  | .write .. => true

/-- A click names a repair category and does more than to record the receiver of a bound card, and
the reconciler does not find the card bound to the task already. -/
def RevisesOnChange (s : Broker) : Op → Prop
  | .admission (.enqueueWithCard args) =>
    args.category ≠ "" ∧
      ∀ task, (s.cards args.cardId).activeTaskId = some task →
        s.taskCards task = some args.cardId →
        (s.cards args.cardId).receiveId.getD "" ≠ "" ∨ args.senderId = ""
  | .admission (.reconcile _ task _) =>
    ∀ context, (s.tasks task).admissionContext = some context →
      (s.tasks task).admissionIncomplete = true →
      (s.cards context.cardId).activeTaskId ≠ some task
  | _ => True

/--
The write does not compare revisions in its script. A cancel writes the card
only while the card shows the canceled task.
-/
def CardWrite.unchecked (card : CardHash) (read : CardRead) : CardWrite → Bool
  | .finalizeCancel .. => card.activeTaskId == some read.task
  | .publishEligibility .. => true
  | _ => false

/--
The condition under which revisions stay unique: a write that does not compare
revisions finds the revision its process had read.
-/
def RevisionSafe (r : RevisionRun) : RevisionOp → Prop
  | .call op => RevisesOnChange r.broker op
  | .read .. => True
  | .write process write =>
    ∀ read, r.reads process = some read →
      write.unchecked (r.broker.cards read.cardId) read = true →
      r.revision read.cardId = read.revision

/-! ## What one call does to the revisions -/

/-- Every card is unchanged or carries the next revision. -/
def Revised (before after : Broker) : Prop :=
  ∀ cardId, after.cards cardId = before.cards cardId ∨
    (after.cards cardId).revision = some ((before.cards cardId).revision.getD 0 + 1)

/-- Every card keeps its revision, unless it had none. -/
def RevisionsKept (before after : Broker) : Prop :=
  ∀ cardId, (after.cards cardId).revision = (before.cards cardId).revision ∨
    (before.cards cardId).revision = none

namespace Revised

variable {before after : Broker}

theorem of_cards
    (cards : after.cards = before.cards) :
    Revised before after := by
  intro cardId
  exact Or.inl (by rw [cards])

theorem of_update
    {target : CardId}
    {card : CardHash}
    (cards : after.cards = Function.update before.cards target card)
    (revision : card.revision = some ((before.cards target).revision.getD 0 + 1)) :
    Revised before after := by
  intro cardId
  rw [cards]
  by_cases same : cardId = target
  · subst cardId
    exact Or.inr (by rw [Function.update_self, revision])
  · exact Or.inl (Function.update_of_ne same card before.cards)

theorem congr
    {before middle after last : Broker}
    (first : CardsKept before middle)
    (revised : Revised middle after)
    (second : CardsKept after last) :
    Revised before last := by
  intro cardId
  rw [second.cards, ← first.cards]
  exact revised cardId

end Revised

namespace RevisionsKept

variable {before after : Broker}

theorem of_cards
    (cards : after.cards = before.cards) :
    RevisionsKept before after := by
  intro cardId
  exact Or.inl (by rw [cards])

theorem of_update
    {target : CardId}
    {card : CardHash}
    (cards : after.cards = Function.update before.cards target card)
    (revision : card.revision = (before.cards target).revision) :
    RevisionsKept before after := by
  intro cardId
  rw [cards]
  by_cases same : cardId = target
  · subst cardId
    exact Or.inl (by rw [Function.update_self, revision])
  · exact Or.inl (by rw [Function.update_of_ne same])

end RevisionsKept

namespace Broker

variable (s : Broker)

theorem recordReceiver_cards (args : CardEnqueueArgs) :
    ∃ card, (recordReceiver args s).cards = Function.update s.cards args.cardId card ∧
      card.revision = (s.cards args.cardId).revision := by
  refine ⟨_, rfl, ?_⟩
  dsimp only
  split <;> rfl

variable (args : CardEnqueueArgs)

theorem recordReceiver_cards_of_known
    (known : (s.cards args.cardId).receiveId.getD "" ≠ "" ∨ args.senderId = "") :
    (recordReceiver args s).cards = s.cards := by
  rw [recordReceiver, updCard_cards]
  rcases known with recorded | anonymous
  · simp [recorded]
  · simp [anonymous]

theorem bound_revised
    (task : TaskId)
    (items : List RepairItem)
    {middle : Broker}
    (kept : CardsKept s middle) :
    Revised s (recordReceiver args
      (middle.updCard args.cardId
        (boundCard args task items ((s.cards args.cardId).revision.getD 0 + 1)))) := by
  obtain ⟨card, cards, revision⟩ := recordReceiver_cards
    (middle.updCard args.cardId
      (boundCard args task items ((s.cards args.cardId).revision.getD 0 + 1))) args
  have written : (recordReceiver args (middle.updCard args.cardId
      (boundCard args task items ((s.cards args.cardId).revision.getD 0 + 1)))).cards =
      Function.update s.cards args.cardId card := by
    rw [cards, updCard_cards, Function.update_idem, kept.cards]
  refine Revised.of_update written (revision.trans ?_)
  simp [boundCard]

theorem admitFresh_revised (args : CardEnqueueArgs) : Revised s (s.admitFresh args).1 := by
  unfold admitFresh
  dsimp only
  split
  · exact Revised.of_cards rfl
  split
  · exact Revised.of_cards rfl
  · rename_i items _
    rw [freshAdmission_eq]
    exact bound_revised s args args.envelope.taskId items
      (startTask_cardsKept s args.envelope args.context args.priority)

theorem admitCandidate_revised
    (candidate : TaskId)
    (incomplete : Bool)
    (known : ∀ task, (s.cards args.cardId).activeTaskId = some task →
      s.taskCards task = some args.cardId →
      (s.cards args.cardId).receiveId.getD "" ≠ "" ∨ args.senderId = "") :
    Revised s (s.admitCandidate args candidate incomplete).1 := by
  unfold admitCandidate
  dsimp only
  split
  · exact Revised.of_cards rfl
  split
  · exact Revised.of_cards rfl
  rename_i items _
  have completed :
      CardsKept s (if incomplete then s.completeCandidate args candidate else s) := by
    split
    · exact completeCandidate_cardsKept s args candidate
    · exact CardsKept.refl s
  split
  · exact bound_revised s args candidate items completed
  · rename_i bound
    -- Nothing was rebound, so the card already shows the candidate.
    simp only [Bool.or_eq_true, bne_iff_ne, ne_eq, not_or, not_not] at bound
    obtain ⟨⟨whole, active⟩, binding⟩ := bound
    refine Revised.of_cards ?_
    simp only [whole, Bool.false_eq_true, if_false, setDedup_cards, setTaskCard_cards]
    exact recordReceiver_cards_of_known s args (known candidate active binding)

theorem enqueueTaskWithCard_revised
    (safe : RevisesOnChange s (.admission (.enqueueWithCard args))) :
    Revised s (s.enqueueTaskWithCard args).1 := by
  obtain ⟨categorized, known⟩ := safe
  have category : Revised s (s.enqueueCategory args).1 := by
    unfold enqueueCategory
    split
    · exact Revised.of_cards rfl
    split
    · exact Revised.of_cards rfl
    split
    · exact admitFresh_revised s args
    split
    · exact Revised.of_cards rfl
    · exact Revised.congr (forgetCandidate_cardsKept s args _) (admitFresh_revised _ args)
        (CardsKept.refl _)
    · exact admitCandidate_revised s args _ true known
    · exact admitCandidate_revised s args _ false known
  unfold enqueueTaskWithCard
  dsimp only
  repeat' split
  all_goals first
    | exact Revised.of_cards rfl
    | exact category

theorem admitPostRepairUt_revised (args : PostRepairUtArgs) :
    Revised s (s.admitPostRepairUt args).1 := by
  unfold admitPostRepairUt
  dsimp only
  split
  · exact Revised.of_cards rfl
  split
  · exact Revised.of_cards rfl
  split
  · exact Revised.of_cards rfl
  rename_i eligible
  split
  · exact Revised.of_cards rfl
  split
  · exact Revised.of_cards rfl
  · have current : (s.cards args.cardId).revision = some args.revision := by
      simp only [utEligible] at eligible
      grind
    refine Revised.congr (startTask_cardsKept s args.envelope args.context true) ?_
      (CardsKept.refl _)
    refine Revised.of_update rfl ?_
    simp [current]

theorem finishAdmission_revised
    (mr : MrKey) (task : TaskId) (context : AdmissionContext) (now : Time)
    (unbound : (s.cards context.cardId).activeTaskId ≠ some task) :
    Revised s (s.finishAdmission mr task context now) := by
  unfold finishAdmission
  dsimp only
  split
  · refine Revised.of_update rfl ?_
    simp [reconcileCard, unbound]
  · exact Revised.of_cards rfl

theorem reconcileAdmissionGate_revised
    (mr : MrKey) (task : TaskId) (now : Time)
    (safe : RevisesOnChange s (.admission (.reconcile mr task now))) :
    Revised s (s.reconcileAdmissionGate mr task now).1 := by
  unfold reconcileAdmissionGate
  dsimp only
  split
  · exact Revised.of_cards rfl
  split
  · exact Revised.of_cards (releaseGate_cardsKept s mr task).cards
  split
  · rename_i incomplete
    have failed : Revised s (s.failAdmission mr task now) :=
      Revised.of_cards (failAdmission_cardsKept s mr task now).cards
    split
    · rename_i context envelope stored _
      split
      · exact Revised.of_cards rfl
      split
      · exact finishAdmission_revised s mr task context now (safe context stored incomplete)
      · exact failed
    · exact failed
  split
  · exact Revised.of_cards rfl
  · exact Revised.of_cards rfl

theorem createRollback_revised
    (count : Nat) (args : RollbackArgs) (now : Time)
    (current : (s.cards args.cardId).revision = some args.revision) :
    Revised s (s.createRollback count args now) := by
  refine Revised.of_update rfl ?_
  simp only [rollbackCard]
  split <;> simp [current]

theorem admitRepairRollback_revised (args : RollbackArgs) (now : Time) :
    Revised s (s.admitRepairRollback args now).1 := by
  rcases admitRepairRollback_cases s args now with
    ⟨same, _⟩ | ⟨admissible, _, count, changed⟩
  · exact Revised.of_cards (by rw [same])
  · rw [changed]
    have settled := settleRepair_cardsKept s args now
    refine Revised.congr settled (createRollback_revised _ _ args now ?_) (CardsKept.refl _)
    rw [settled.cards]
    exact admissible.revision

theorem completeRepairRollback_revised
    (lease : Option MrLease) (args : CompleteRollbackArgs) (now : Time) :
    Revised s (s.completeRepairRollback lease args now).1 := by
  rcases completeRepairRollback_cases s lease args now with same | ⟨_, changed⟩
  · exact Revised.of_cards (by rw [same])
  · rw [changed]
    refine Revised.congr (CardsKept.refl s) ?_ (CardsKept.dropOwnerTask _ _ _)
    refine Revised.of_update rfl ?_
    simp only [completeRollbackCard]
    split <;> rfl

theorem requestPostRepairUtCancel_revised (task : TaskId) (args : CancelArgs) (now : Time) :
    Revised s (s.requestPostRepairUtCancel task args now).1 := by
  unfold requestPostRepairUtCancel
  dsimp only
  split
  · exact Revised.of_cards rfl
  split
  · exact Revised.of_cards rfl
  rename_i guard
  split
  · exact Revised.of_cards rfl
  split
  · exact Revised.of_cards rfl
  split
  · exact Revised.of_cards rfl
  · have current : (s.cards args.cardId).revision = some args.revision := by
      simp only [Bool.or_eq_true, decide_eq_true_eq, not_or, not_not] at guard
      exact guard.1.1.2
    refine Revised.of_update rfl ?_
    simp [current]

theorem reconcileRepairCard_revised
    (task : TaskId) (cardId : CardId) (expectedRevision : Nat) (args : TerminalCardArgs)
    (notification : NotificationEnvelope) (now : Time)
    (next : args.revision = expectedRevision + 1) :
    Revised s (s.reconcileRepairCardWithNotification task cardId expectedRevision args
      notification now).1 := by
  unfold reconcileRepairCardWithNotification
  dsimp only
  split
  · exact Revised.of_cards rfl
  split
  · exact Revised.of_cards rfl
  rename_i guard
  split
  · exact Revised.of_cards rfl
  · simp only [Bool.or_eq_true, decide_eq_true_eq, not_or, not_not] at guard
    refine Revised.of_update rfl ?_
    simp [terminalCard, next, guard.2]

theorem correctLateRepairTerminal_revised
    (task : TaskId) (cardId : CardId) (args : LateCorrectionArgs)
    (notification : NotificationEnvelope) (now : Time) :
    Revised s (s.correctLateRepairTerminal task cardId args notification now).1 := by
  unfold correctLateRepairTerminal
  dsimp only
  split
  · exact Revised.of_cards rfl
  split
  · exact Revised.of_cards rfl
  · rename_i guard
    simp only [Bool.or_eq_true, decide_eq_true_eq, not_or, not_not] at guard
    refine Revised.of_update rfl ?_
    simp [terminalCard, guard.2]

theorem updatePostRepairUt_revised
    (task : TaskId) (cardId : CardId) (state : PostRepairUTState) (terminal : Bool)
    (notification : NotificationEnvelope) (now : Time) :
    Revised s (s.updatePostRepairUtWithNotification task cardId state terminal
      notification now).1 := by
  unfold updatePostRepairUtWithNotification
  dsimp only
  split
  · exact Revised.of_cards rfl
  split
  · exact Revised.of_cards rfl
  split
  · exact Revised.of_cards rfl
  split
  · refine Revised.of_update (by simp; rfl) ?_
    simp
  · exact Revised.of_update rfl rfl

theorem finalizeRepairCancel_revised
    (task : TaskId) (lease : Option MrLease) (args : FinalizeCancelArgs) (now : Time)
    (next : (s.cards args.cardId).activeTaskId = some task →
      args.revision = (s.cards args.cardId).revision.getD 0 + 1) :
    Revised s (s.finalizeRepairCancel task lease args now).1 := by
  unfold finalizeRepairCancel
  dsimp only
  repeat' split
  all_goals first
    | exact Revised.of_cards rfl
    | skip
  have canceled := finalizeCancelTask_cardsKept s task args now
  refine Revised.congr canceled ?_ (finalizeCancelAuto_cardsKept _ _ _ _ now)
  unfold finalizeCancelCard
  split
  · exact Revised.of_cards rfl
  · rename_i active
    rw [canceled.cards] at active
    refine Revised.of_update rfl ?_
    rw [canceled.cards, next (not_not.mp active)]

theorem step_revised
    (op : Op)
    (revises : op.revises = true)
    (direct : op.readsFirst = false)
    (safe : RevisesOnChange s op) :
    Revised s (s.step op) := by
  cases op with
  | admission op =>
      cases op with
      | enqueue args =>
          cases revises
      | enqueueWithCard args =>
          exact enqueueTaskWithCard_revised s args safe
      | postRepairUt args =>
          exact admitPostRepairUt_revised s args
      | reconcile mr task now =>
          exact reconcileAdmissionGate_revised s mr task now safe
  | rollback op =>
      cases op with
      | admitRollback args now =>
          exact admitRepairRollback_revised s args now
      | complete lease args now =>
          exact completeRepairRollback_revised s lease args now
      | admitReport | setReportState | completeReport =>
          cases revises
  | task op =>
      cases op with
      | requestUtCancel task args now =>
          exact requestPostRepairUtCancel_revised s task args now
      | finalizeCancel =>
          cases direct
      | _ =>
          cases revises
  | card op =>
      cases op with
      | updateUt task cardId state terminal notification now =>
          exact updatePostRepairUt_revised s task cardId state terminal notification now
      | reconcile | correctLate | publishEligibility =>
          cases direct
      | _ =>
          cases revises
  | lease | effect | manifest | auto | pipeline | expiry =>
      cases revises

theorem write_revised
    (read : CardRead)
    (write : CardWrite)
    (safe : write.unchecked (s.cards read.cardId) read = true →
      (s.cards read.cardId).revision.getD 0 = read.revision) :
    Revised s (s.step (write.op read)) := by
  cases write with
  | reconcile cardId items state statusMarkdown pipelineId pipelineSha ut notification now =>
      exact reconcileRepairCard_revised s read.task cardId read.revision _ notification now rfl
  | correctLate cardId status repairState items statusMarkdown pipelineId pipelineSha
      notification now =>
      exact correctLateRepairTerminal_revised s read.task cardId _ notification now
  | finalizeCancel mr lease statusMarkdown notification now =>
      refine finalizeRepairCancel_revised s read.task lease _ now ?_
      intro active
      have current := safe (by simpa [CardWrite.unchecked] using active)
      exact congrArg (· + 1) current.symm
  | publishEligibility manifest valid now =>
      have current := safe rfl
      refine Revised.of_update rfl ?_
      rw [current]

theorem step_revisionsKept
    (op : Op)
    (unlisted : op.revises = false)
    (lasting : op.expiresCard = false) :
    RevisionsKept s (s.step op) := by
  by_cases quiet : op.writesCard = false
  · exact RevisionsKept.of_cards (step_cardsKept s op quiet).cards
  cases op with
  | task op =>
      cases op with
      | requestCancel task args statusMarkdown notification now =>
          dsimp only [step, taskStep, requestRepairCancel]
          repeat' split
          all_goals first
            | exact RevisionsKept.of_cards rfl
            | exact RevisionsKept.of_update rfl rfl
      | requestUtCancel | finalizeCancel =>
          cases unlisted
      | _ =>
          exact absurd rfl quiet
  | card op =>
      cases op with
      | save mr cardId pipelineId card =>
          dsimp only [step, cardStep, saveTriageCard]
          split
          · exact RevisionsKept.of_cards rfl
          rename_i missing
          split
          · exact RevisionsKept.of_cards rfl
          · intro other
            by_cases same : other = cardId
            · subst other
              have absent : s.cards cardId = {} := by simpa [CardHash.exists_] using missing
              exact Or.inr (by rw [absent])
            · exact Or.inl (by simp [same])
      | recordMessage cardId messageId receiveId now =>
          dsimp only [step, cardStep, recordCardMessage]
          repeat' split
          all_goals first
            | exact RevisionsKept.of_cards rfl
            | exact RevisionsKept.of_update rfl rfl
      | transition cardId expected target statusMarkdown now =>
          dsimp only [step, cardStep, transitionTriageCard]
          split
          · exact RevisionsKept.of_cards rfl
          · exact RevisionsKept.of_update rfl rfl
      | transitionNotify task cardId expected target statusMarkdown notification now =>
          dsimp only [step, cardStep, transitionTriageCardWithNotification]
          repeat' split
          all_goals first
            | exact RevisionsKept.of_cards rfl
            | exact RevisionsKept.of_update rfl rfl
      | progress task cardId args notification now =>
          dsimp only [step, cardStep, updateRepairProgressWithNotification]
          split
          · exact RevisionsKept.of_cards rfl
          split
          · exact RevisionsKept.of_cards rfl
          · exact RevisionsKept.of_update rfl rfl
      | notify notification =>
          dsimp only [step, cardStep, enqueueNotification]
          split <;> exact RevisionsKept.of_cards rfl
      | fallback cardId notification now =>
          dsimp only [step, cardStep, enqueueCardFallback]
          repeat' split
          all_goals first
            | exact RevisionsKept.of_cards rfl
            | exact RevisionsKept.of_update rfl rfl
      | reconcile | correctLate | updateUt | publishEligibility =>
          cases unlisted
  | admission op =>
      cases op with
      | enqueue =>
          exact absurd rfl quiet
      | enqueueWithCard | postRepairUt | reconcile =>
          cases unlisted
  | rollback op =>
      cases op with
      | admitRollback | complete =>
          cases unlisted
      | admitReport | setReportState | completeReport =>
          exact absurd rfl quiet
  | expiry op =>
      cases op with
      | card =>
          cases lasting
      | latestCard | latestPipeline =>
          exact RevisionsKept.of_cards rfl
      | dedup | taskCard | pipelineEvent | waiters | notification =>
          exact absurd rfl quiet
  | lease | effect | manifest | auto | pipeline =>
      exact absurd rfl quiet

end Broker

/-! ## Runs -/

/-- Every revision left on a card is below its present one, and they increase. -/
def RevisionsOrdered (r : RevisionRun) : Prop :=
  ∀ cardId, (r.left cardId).Pairwise (· < ·) ∧
    ∀ revision ∈ r.left cardId, ∃ present,
      (r.broker.cards cardId).revision = some present ∧ revision ≤ present

/-- The revision of every card is at least what it was. -/
def RevisionsGrow (before after : RevisionRun) : Prop :=
  ∀ cardId, before.revision cardId ≤ after.revision cardId

namespace RevisionRun

variable {r : RevisionRun}

theorem perform_left
    (op : Op)
    (cardId : CardId) :
    (r.perform op).left cardId = r.left cardId ∨
      (op.revises = true ∧ (r.broker.step op).cards cardId ≠ r.broker.cards cardId ∧
        (r.perform op).left cardId =
          r.left cardId ++ [((r.broker.step op).cards cardId).revision.getD 0]) := by
  dsimp only [perform]
  split
  · rename_i changed
    simp only [Bool.and_eq_true, decide_eq_true_eq] at changed
    exact Or.inr ⟨changed.1, changed.2, rfl⟩
  · exact Or.inl rfl

theorem perform_revised
    {op : Op}
    (revised : Revised r.broker (r.broker.step op))
    (ordered : RevisionsOrdered r) :
    RevisionsOrdered (r.perform op) ∧ RevisionsGrow r (r.perform op) := by
  refine ⟨?_, ?_⟩
  · intro cardId
    obtain ⟨increasing, below⟩ := ordered cardId
    have raised : ∀ revision ∈ r.left cardId, ∃ present,
        ((r.perform op).broker.cards cardId).revision = some present ∧ revision ≤ present := by
      intro revision member
      obtain ⟨present, stored, bound⟩ := below revision member
      rcases revised cardId with same | next
      · exact ⟨present, by rw [← stored]; exact congrArg CardHash.revision same, bound⟩
      · refine ⟨present + 1, ?_, by omega⟩
        exact next.trans (by rw [stored]; rfl)
    rcases perform_left op cardId with same | ⟨_, changed, appended⟩
    · rw [same]
      exact ⟨increasing, raised⟩
    · -- The call changed this card, so it wrote the next revision.
      have next := (revised cardId).resolve_left changed
      rw [appended, next]
      constructor
      · refine List.pairwise_append.mpr ⟨increasing, List.pairwise_singleton _ _, ?_⟩
        intro revision member last only
        obtain ⟨present, stored, bound⟩ := below revision member
        rw [List.mem_singleton.mp only, stored]
        exact Nat.lt_succ_of_le bound
      · intro revision member
        rcases List.mem_append.mp member with old | new
        · exact raised revision old
        · exact ⟨_, next, (List.mem_singleton.mp new).le⟩
  · intro cardId
    change (r.broker.cards cardId).revision.getD 0 ≤
      ((r.broker.step op).cards cardId).revision.getD 0
    rcases revised cardId with same | next
    · rw [same]
    · rw [next]
      exact Nat.le_succ _

theorem perform_kept
    {op : Op}
    (unlisted : op.revises = false)
    (kept : RevisionsKept r.broker (r.broker.step op))
    (ordered : RevisionsOrdered r) :
    RevisionsOrdered (r.perform op) ∧ RevisionsGrow r (r.perform op) := by
  refine ⟨?_, ?_⟩
  · intro cardId
    have same : (r.perform op).left cardId = r.left cardId := by
      dsimp only [perform]
      rw [unlisted, Bool.false_and, if_neg Bool.false_ne_true]
    obtain ⟨increasing, below⟩ := ordered cardId
    rw [same]
    refine ⟨increasing, ?_⟩
    intro revision member
    obtain ⟨present, stored, bound⟩ := below revision member
    rcases kept cardId with equal | absent
    · exact ⟨present, equal.trans stored, bound⟩
    · rw [stored] at absent
      cases absent
  · intro cardId
    change (r.broker.cards cardId).revision.getD 0 ≤
      ((r.broker.step op).cards cardId).revision.getD 0
    rcases kept cardId with equal | absent
    · rw [equal]
    · rw [absent]
      exact Nat.zero_le _

theorem step_ordered
    (op : RevisionOp)
    (ordered : RevisionsOrdered r)
    (scheduled : op.scheduled = true)
    (safe : RevisionSafe r op) :
    RevisionsOrdered (r.step op) ∧ RevisionsGrow r (r.step op) := by
  cases op with
  | call op =>
      simp only [RevisionOp.scheduled, Bool.and_eq_true, Bool.not_eq_true'] at scheduled
      obtain ⟨direct, lasting⟩ := scheduled
      cases revises : op.revises with
      | true =>
          exact perform_revised (r.broker.step_revised op revises direct safe) ordered
      | false =>
          exact perform_kept revises (r.broker.step_revisionsKept op revises lasting) ordered
  | read process task =>
      exact ⟨ordered, fun _ => le_rfl⟩
  | write process write =>
      dsimp only [step]
      split
      · exact ⟨ordered, fun _ => le_rfl⟩
      · rename_i read found
        exact perform_revised (r.broker.write_revised read write (safe read found)) ordered

end RevisionRun

/-- While every unchecked write finds the revision it was computed from, revisions never decrease
and no two changes of a card leave the same one. -/
theorem card_revisions_monotone_and_unique
    {s : Broker}
    {middle final : RevisionRun}
    (before : Reaches RevisionRun.step (fun r op => op.scheduled = true ∧ RevisionSafe r op)
      (RevisionRun.start s) middle)
    (after : Reaches RevisionRun.step (fun r op => op.scheduled = true ∧ RevisionSafe r op)
      middle final)
    (cardId : CardId) :
    middle.revision cardId ≤ final.revision cardId ∧ (final.left cardId).Nodup := by
  have preserved : ∀ r op, RevisionsOrdered r → op.scheduled = true ∧ RevisionSafe r op →
      RevisionsOrdered (r.step op) := by
    intro r op ordered allowed
    exact (RevisionRun.step_ordered op ordered allowed.1 allowed.2).1
  have initial : RevisionsOrdered (RevisionRun.start s) := by
    intro cardId
    exact ⟨List.Pairwise.nil, by simp [RevisionRun.start]⟩
  have reached := Reaches.invariant RevisionsOrdered preserved before initial
  -- The order is an invariant, so growth is established step by step beside it.
  have grown : RevisionsOrdered final ∧ RevisionsGrow middle final := by
    refine Reaches.invariant (fun r => RevisionsOrdered r ∧ RevisionsGrow middle r) ?_ after
      ⟨reached, fun _ => le_rfl⟩
    intro r op holds allowed
    have next := RevisionRun.step_ordered op holds.1 allowed.1 allowed.2
    exact ⟨next.1, fun cardId => (holds.2 cardId).trans (next.2 cardId)⟩
  refine ⟨grown.2 cardId, ?_⟩
  exact (grown.1 cardId).1.imp Nat.ne_of_lt

namespace RevisionSample

open Sample

def other : TaskId := ⟨"repair-build", by decide⟩

def sha : String := "0000000000000000000000000000000000000000"

/-- The one commit of the first repair. -/
def manifest : RepairCommitManifest where
  repairTaskId := repair
  projectId := "group/project"
  mrIid := 7
  sourceBranch := "fix"
  baseCommitSha := sha
  baseTreeSha := sha
  authorizedActorId := "author"
  entries :=
    [⟨1, "1111111111111111111111111111111111111111", sha, sha, "effect", "marker", "today"⟩]
  frozen := true
  frozenAt := "today"

theorem manifest_valid : manifest.validateStatic = .ok () := by
  decide

/-- A repair is clicked, fails, and its card is reconciled to revision 2. -/
def failedRepair : List RevisionOp :=
  [.call (.card (.save mr "card" 11 card)),
    .call (.admission (.enqueueWithCard (click repair "format" [] 0))),
    .call (.task (.assign repair none workerA 2)),
    .call (.task (.transition repair .start none {} 3)),
    .call (.task (.transition repair .fail none {} 4)),
    .read 0 repair,
    .write 0 (.reconcile "card" items .repairFailed "" 11 "sha" none notice 5),
    .read 1 repair]

/-- The eligibility of the failed repair's rollback is published. -/
def publish : RevisionOp :=
  .write 1 (.publishEligibility manifest manifest_valid 9)

/-- A second repair is clicked on the card and canceled: revisions 3 and 4. -/
def canceledRepair : List RevisionOp :=
  [.call (.admission (.enqueueWithCard { click other "build" [] 2 with
      envelope := envelope other .prCommand "/triage" "feishu-card:build" })),
    .call (.card (.transition "card" [.repairFailed] .repairQueued "" 6)),
    .call (.task (.requestCancel other ⟨mr, "card", "message", "author", 3⟩ "" ⟨"n", "", ""⟩ 7)),
    .read 0 other,
    .write 0 (.finalizeCancel mr none "" ⟨"m", "", ""⟩ 8)]

def start : RevisionRun :=
  RevisionRun.start Broker.empty

end RevisionSample

open RevisionSample in
theorem eligibility_published_at_once :
    let final := (failedRepair ++ [publish]).foldl RevisionRun.step start
    final.revision "card" = 3 ∧ final.left "card" = [1, 2, 3] ∧ (final.left "card").Nodup := by
  intro final
  have idle : (((failedRepair.take 1).foldl RevisionRun.step start).broker.cards
      "card").activeTaskId = none := by decide +kernel
  have current : (failedRepair.foldl RevisionRun.step start).revision "card" = 2 := by
    decide +kernel
  have found : (failedRepair.foldl RevisionRun.step start).reads 1 =
      some ⟨Sample.repair, "card", (failedRepair.foldl RevisionRun.step start).broker.cards
        "card"⟩ := by decide +kernel
  have run : Reaches RevisionRun.step (fun r op => op.scheduled = true ∧ RevisionSafe r op)
      start final := by
    refine Reaches.of_follows ⟨⟨rfl, trivial⟩, ⟨rfl, by decide, ?_⟩, ⟨rfl, trivial⟩,
      ⟨rfl, trivial⟩, ⟨rfl, trivial⟩, ⟨rfl, trivial⟩, ⟨rfl, ?_⟩, ⟨rfl, trivial⟩, ⟨rfl, ?_⟩,
      trivial⟩
    · intro task active
      cases idle.symm.trans active
    · intro read _ unchecked
      cases unchecked
    · intro read same _
      obtain rfl := Option.some.inj (found.symm.trans same)
      exact current
  exact ⟨by decide +kernel, by decide +kernel,
    (card_revisions_monotone_and_unique (Reaches.refl _) run "card").2⟩

open RevisionSample in
/--
Published after the second repair, from the card read before it, the
eligibility takes revision 3 a second time and the card goes back from 4.
-/
theorem eligibility_published_late :
    let middle := (failedRepair ++ canceledRepair).foldl RevisionRun.step start
    let final := middle.step publish
    Reaches RevisionRun.step (fun _ op => op.scheduled = true) start middle ∧
      Reaches RevisionRun.step (fun _ op => op.scheduled = true) middle final ∧
      final.revision "card" < middle.revision "card" ∧ ¬(final.left "card").Nodup := by
  intro middle final
  refine ⟨?_, (Reaches.refl middle).snoc publish rfl, by decide +kernel, by decide +kernel⟩
  exact Reaches.of_follows ⟨rfl, rfl, rfl, rfl, rfl, rfl, rfl, rfl, rfl, rfl, rfl, rfl, rfl,
    trivial⟩

end MrAgent
