import MrAgent.RepairTerminal

namespace MrAgent

open TransitionSystem FallibleProgram

/-!
# Late success of a repair

After a late success the card says that the repair succeeded. The row says so
as well exactly when the earlier failure left no outcome and no validation of
another pipeline, or of this one with another status, in the repair state: the
correction rewrites neither.
-/

/-! ## Agreement of a row and a card -/

/-- The pipeline that a row names: the repair's own, else the last one it saw. -/
def TriageRun.recordedPipeline (row : TriageRun) : PipelineResult :=
  match row.finalPipelineId with
  | some id => ⟨id, row.finalPipelineSha, row.finalPipelineStatus⟩
  | none =>
    ⟨row.evidencePipelineId.getD 0, row.evidencePipelineSha, row.evidencePipelineStatus⟩

/-- The row and the card tell the same end of one pipeline. -/
structure RecordAgrees (row : TriageRun) (card : CardHash) : Prop where
  outcome :
    row.success = 1 ∧ row.repairOutcome = "success" ↔ card.state = some .repairSucceeded
  pipeline : row.recordedPipeline = ⟨card.bindingPipelineId, card.bindingPipelineSha, "success"⟩

/-- The last action on the repair's commit has no validation, or that of the event. -/
def ValidatedBy
    (event : PipelineEvent)
    (action : RepairAction) : Prop :=
  action.validationPipelineId ≠ 0 →
    action.validationPipelineId = event.pipelineId ∧ action.commitSha = event.sha ∧
      (action.validationStatus = "" ∨ action.validationStatus = "success")

/-- What the earlier failure must not have left behind. -/
structure LeavesNoVerdict (stored : StoredTask) (event : PipelineEvent) : Prop where
  outcome :
    stored.pipelineRepairState.repairOutcome = "" ∨
      stored.pipelineRepairState.repairOutcome = "success"
  validation : ∀ action,
    lastCommitAction stored.repairCommitManifest stored.pipelineRepairState.repairActions =
      some action → ValidatedBy event action

@[simp]
theorem textOr_empty (second : String) : textOr "" second = second := rfl

theorem textOr_of_ne {first : String} (second : String) (present : first ≠ "") :
    textOr first second = first :=
  if_neg present

@[simp]
theorem textOr_self (text : String) : textOr text text = text :=
  ite_self text

theorem textOr_success_iff (text : String) :
    textOr text "success" = "success" ↔ text = "" ∨ text = "success" := by
  by_cases empty : text = ""
  · simp [empty]
  · simp [textOr_of_ne _ empty, empty]

@[simp]
theorem numberOr_self (value : Nat) : numberOr value value = value :=
  ite_self value

@[simp]
theorem orNone_zero : orNone 0 = none := rfl

@[simp]
theorem orNone_getD (value : Nat) : (orNone value).getD 0 = value := by
  cases value with
  | zero =>
      rfl
  | succ n =>
      rfl

theorem orNone_of_ne {value : Nat} (positive : value ≠ 0) : orNone value = some value :=
  if_neg positive

theorem lastCommitAction_commit
    {manifest : Option RepairCommitManifest} {actions : List RepairAction} {action : RepairAction}
    (found : lastCommitAction manifest actions = some action) :
    action.commitSha ≠ "" ∧ textOr (manifestSha manifest) action.commitSha = action.commitSha := by
  have member := List.mem_of_getLast? found
  obtain ⟨_, kept⟩ := List.mem_filter.mp member
  simp only [ne_eq, Bool.and_eq_true, Bool.or_eq_true, decide_eq_true_eq] at kept
  obtain ⟨committed, absent | same⟩ := kept
  · exact ⟨committed, by rw [absent, textOr_empty]⟩
  · exact ⟨committed, by rw [← same, textOr_self]⟩

theorem resolve_validated
    {manifest : Option RepairCommitManifest} {actions : List RepairAction} {action : RepairAction}
    (found : lastCommitAction manifest actions = some action)
    (validated : action.validationPipelineId ≠ 0)
    (id : Nat) (sha status : String) :
    resolveRepairResultIdentity manifest actions id sha status =
      ⟨action.validationPipelineId, action.commitSha, action.validationStatus⟩ := by
  obtain ⟨committed, commit⟩ := lastCommitAction_commit found
  simp [resolveRepairResultIdentity, found, commit, committed, validated]

theorem resolve_unvalidated
    {manifest : Option RepairCommitManifest} {actions : List RepairAction}
    (unvalidated : ∀ action, lastCommitAction manifest actions = some action →
      action.validationPipelineId = 0)
    (id : Nat) (sha status : String) :
    resolveRepairResultIdentity manifest actions id sha status = {} ∨
      id ≠ 0 ∧ sha ≠ "" ∧
        resolveRepairResultIdentity manifest actions id sha status = ⟨id, sha, status⟩ := by
  have none : ((lastCommitAction manifest actions).getD {}).validationPipelineId = 0 := by
    cases found : lastCommitAction manifest actions with
    | none =>
        rfl
    | some action =>
        exact unvalidated action found
  unfold resolveRepairResultIdentity
  simp only [none]
  split
  · exact Or.inl rfl
  · rename_i committed
    split
    · contradiction
    · split
      · rename_i current
        simp only [ne_eq, Bool.and_eq_true, decide_eq_true_eq] at current
        refine Or.inr ⟨current.1, ?_, ?_⟩
        · rw [current.2]
          exact committed
        · rw [current.2]
      · exact Or.inl rfl

section Record

variable (lower : List Char → List Char) (stored : StoredTask) (card : CardHash)

theorem triageRecord_recordedPipeline
    (status : stored.pipelineRepairState.finalPipelineStatus = "success")
    (id : stored.pipelineRepairState.latestPipelineId = card.bindingPipelineId)
    (sha : stored.pipelineRepairState.latestPipelineSha = card.bindingPipelineSha)
    (present : card.bindingPipelineSha ≠ "") :
    (triageRecord lower stored (some card) "").recordedPipeline =
        ⟨card.bindingPipelineId, card.bindingPipelineSha, "success"⟩ ↔
      ∀ action,
        lastCommitAction stored.repairCommitManifest stored.pipelineRepairState.repairActions =
          some action →
        action.validationPipelineId ≠ 0 →
          action.validationPipelineId = card.bindingPipelineId ∧
            action.commitSha = card.bindingPipelineSha ∧
            (action.validationStatus = "" ∨ action.validationStatus = "success") := by
  have ended : terminalStatus stored (some card) = "success" := by
    simp [terminalStatus, status]
  by_cases validated : ∃ action,
      lastCommitAction stored.repairCommitManifest stored.pipelineRepairState.repairActions =
        some action ∧ action.validationPipelineId ≠ 0
  · obtain ⟨action, found, pipeline⟩ := validated
    obtain ⟨committed, _⟩ := lastCommitAction_commit found
    have identity := resolve_validated found pipeline
    simp [TriageRun.recordedPipeline, triageRecord, identity, ended, found, pipeline,
      orNone_of_ne pipeline, RepairResultIdentity.exists_, committed, textOr_success_iff]
  · have unvalidated : ∀ action,
        lastCommitAction stored.repairCommitManifest stored.pipelineRepairState.repairActions =
          some action → action.validationPipelineId = 0 := by
      intro action found
      by_contra pipeline
      exact validated ⟨action, found, pipeline⟩
    refine iff_of_true ?_ fun action found pipeline => absurd (unvalidated action found) pipeline
    rcases resolve_unvalidated unvalidated card.bindingPipelineId card.bindingPipelineSha "success"
      with absent | ⟨positive, _, identity⟩
    · simp [TriageRun.recordedPipeline, triageRecord, ended, id, sha, absent]
    · simp [TriageRun.recordedPipeline, triageRecord, ended, id, sha, identity,
        orNone_of_ne positive, RepairResultIdentity.exists_, positive, present]

theorem triageRecord_agrees_iff
    (event : PipelineEvent)
    (succeeded : card.state = some .repairSucceeded)
    (status : stored.pipelineRepairState.finalPipelineStatus = "success")
    (id : stored.pipelineRepairState.latestPipelineId = event.pipelineId)
    (sha : stored.pipelineRepairState.latestPipelineSha = event.sha)
    (cardId : card.bindingPipelineId = event.pipelineId)
    (cardSha : card.bindingPipelineSha = event.sha)
    (present : event.sha ≠ "") :
    RecordAgrees (triageRecord lower stored (some card) "") card ↔ LeavesNoVerdict stored event := by
  have outcome : (triageRecord lower stored (some card) "").repairOutcome =
      textOr stored.pipelineRepairState.repairOutcome "success" := by
    simp [triageRecord, recordedOutcome, succeeded]
  have success : (triageRecord lower stored (some card) "").success =
      if (triageRecord lower stored (some card) "").repairOutcome = "success" then 1 else 0 := rfl
  have pipeline := triageRecord_recordedPipeline lower stored card status (id.trans cardId.symm)
    (sha.trans cardSha.symm) (by rwa [cardSha])
  rw [cardId, cardSha] at pipeline
  constructor
  · intro agrees
    obtain ⟨_, recorded⟩ := agrees.outcome.mpr succeeded
    refine ⟨(textOr_success_iff _).mp (outcome.symm.trans recorded), ?_⟩
    have named := agrees.pipeline
    rw [cardId, cardSha] at named
    exact pipeline.mp named
  · intro clean
    have recorded : (triageRecord lower stored (some card) "").repairOutcome = "success" :=
      outcome.trans ((textOr_success_iff _).mpr clean.outcome)
    refine ⟨iff_of_true ⟨by rw [success, if_pos recorded], recorded⟩ succeeded, ?_⟩
    rw [cardId, cardSha]
    exact pipeline.mpr clean.validation

end Record

/-! ## One correction -/

/-- Every envelope is stored under its own task id. -/
def Broker.OwnEnvelopes (s : Broker) : Prop :=
  ∀ task envelope, (s.tasks task).payload = some envelope → envelope.taskId = task

theorem Broker.ownEnvelopes_of_reaches
    {s : Broker}
    (run : Reaches Broker.step (fun _ _ => True) Broker.empty s) :
    s.OwnEnvelopes := by
  refine Reaches.invariant Broker.OwnEnvelopes ?_ run ?_
  · intro s op own _ task envelope payload
    rcases (s.step_stores op task).2 with same | ⟨stored, _, named, written⟩
    · exact own task envelope (same.symm.trans payload)
    · obtain rfl := Option.some.inj (written.symm.trans payload)
      exact named
  · intro task envelope payload
    cases payload

theorem TaskHash.read_some
    {task : TaskHash} {stored : StoredTask}
    (read : task.read = .ok (some stored)) :
    task.payload = some stored.envelope ∧ task.status = some stored.status ∧
      stored.pipelineRepairState = task.pipelineRepairState.getD {} ∧
      stored.repairCommitManifest = task.repairCommitManifest := by
  unfold TaskHash.read at read
  split at read
  · cases read
  · split at read
    · rename_i payload status
      cases read
      exact ⟨payload, status, rfl, rfl⟩
    · cases read
    · cases read

theorem Broker.correctLateRepairTerminal_accepted
    {s after : Broker} {task : TaskId} {cardId : CardId} {args : LateCorrectionArgs}
    {notification : NotificationEnvelope} {now : Time}
    (accepted : s.correctLateRepairTerminal task cardId args notification now = (after, 1)) :
    after =
      ((s.updTask task fun t =>
        { t with
          pipelineRepairState := some args.repairState
          error := some ""
          updatedAt := some now }).updCard cardId
        (terminalCard
          { items := args.items
            state := .repairSucceeded
            statusMarkdown := args.statusMarkdown
            currentPipelineId := args.currentPipelineId
            currentPipelineSha := args.currentPipelineSha
            revision := args.expectedRevision + 1 } now)).notify notification := by
  unfold correctLateRepairTerminal at accepted
  dsimp only at accepted
  split at accepted
  · simp at accepted
  · split at accepted
    · simp at accepted
    · exact (congrArg Prod.fst accepted).symm

namespace TerminalWorld

theorem persistRepairTerminal_frame
    (w : TerminalWorld) (env : TerminalEnv) (task : TaskId) (error : String) :
    (w.persistRepairTerminal env task error).1.broker = w.broker ∧
      ∀ other, other ≠ task →
        (w.persistRepairTerminal env task error).1.rows other = w.rows other := by
  unfold persistRepairTerminal
  split
  · exact ⟨rfl, fun _ _ => rfl⟩
  · exact ⟨rfl, fun _ _ => rfl⟩
  · dsimp only
    split
    · exact ⟨rfl, fun _ _ => rfl⟩
    · split
      · exact ⟨rfl, fun other distinct => Function.update_of_ne distinct _ _⟩
      · exact ⟨rfl, fun other distinct => Function.update_of_ne distinct _ _⟩

theorem persistRepairTerminal_row
    {w : TerminalWorld} {env : TerminalEnv} {task : TaskId} {stored : StoredTask}
    (read : w.broker.getTask task = .ok (some stored))
    (outer : isOuterRepair stored.envelope.command = true)
    (terminal : stored.status.terminal = true)
    (saves : env.saves task = true) :
    (w.persistRepairTerminal env task "").1.rows task =
      some (triageRecord env.lower stored ((w.broker.getTaskTriageCard task).map (·.card)) "") := by
  have command : repairCommandWord stored.envelope.command = "/repair-pipeline" := by
    simpa [isOuterRepair] using outer
  unfold persistRepairTerminal
  simp [read, command, terminal, saves, saveTriageRun]

/-- The loop body corrects the candidate's task and the card it has read. -/
structure Corrects
    (env : TerminalEnv)
    (event : PipelineEvent)
    (w : TerminalWorld)
    (stored : StoredTask)
    (read : CardRead)
    (broker : Broker) : Prop where
  candidate : lateCandidate stored event = true
  bound : w.broker.getTaskTriageCard stored.taskId = some read
  binding : lateBinding stored read.card = true
  accepted :
    w.broker.correctLateRepairTerminal stored.taskId read.cardId
      (lateCorrection stored event read.card)
      (env.cardNotification (predictedCard stored event read.card) stored.taskId) env.now =
        (broker, 1)

theorem reconcileTask_cases
    (env : TerminalEnv) (event : PipelineEvent) (progress : TerminalWorld × List TaskId)
    (stored : StoredTask) :
    reconcileTask env event progress stored = progress ∨
      ∃ read broker, Corrects env event progress.1 stored read broker ∧
        reconcileTask env event progress stored =
          ((({ progress.1 with broker := broker } : TerminalWorld).persistRepairTerminal env
            stored.taskId "").1, progress.2 ++ [stored.taskId]) := by
  unfold reconcileTask
  dsimp only
  split
  · exact Or.inl rfl
  · rename_i candidate
    split
    · exact Or.inl rfl
    · rename_i read bound
      split
      · exact Or.inl rfl
      · rename_i binding
        split
        · exact Or.inl rfl
        · rename_i accepted
          rw [not_not] at accepted
          refine Or.inr ⟨read, _, ⟨?_, bound, ?_, Prod.ext rfl accepted⟩, rfl⟩
          · simpa using candidate
          · simpa using binding

end TerminalWorld

/-- The stored task after a correction. -/
def correctedTask (stored : StoredTask) (event : PipelineEvent) : StoredTask :=
  { stored with
    error := ""
    pipelineRepairState := correctedState stored.pipelineRepairState event }

theorem TaskHash.read_written
    {task : TaskHash} {stored : StoredTask}
    (read : task.read = .ok (some stored))
    (state : PipelineRepairState) (now : Time) :
    TaskHash.read
        { task with pipelineRepairState := some state, error := some "", updatedAt := some now } =
      .ok (some { stored with error := "", pipelineRepairState := state }) := by
  obtain ⟨payload, status, _, manifest⟩ := TaskHash.read_some read
  simp [TaskHash.read, TaskHash.exists_, payload, status, manifest]

theorem Broker.getTaskTriageCard_congr
    {s after : Broker} {task : TaskId} {read : CardRead}
    (bound : s.getTaskTriageCard task = some read)
    (links : after.taskCards = s.taskCards)
    (kept : after.cards read.cardId = s.cards read.cardId) :
    after.getTaskTriageCard task = some read := by
  obtain ⟨link, _⟩ := getTaskTriageCard_some bound
  unfold getTaskTriageCard at bound ⊢
  simp only [links, link, Option.bind_some, kept] at bound ⊢
  exact bound

theorem leavesNoVerdict_correctedTask (stored : StoredTask) (event : PipelineEvent) :
    LeavesNoVerdict (correctedTask stored event) event ↔ LeavesNoVerdict stored event :=
  ⟨fun clean => ⟨clean.outcome, clean.validation⟩, fun clean => ⟨clean.outcome, clean.validation⟩⟩

/-! ## The whole loop -/

/-- A corrected task: its card stands at success, its row is the one of the correction. -/
structure Settled
    (env : TerminalEnv)
    (event : PipelineEvent)
    (before : Broker)
    (w : TerminalWorld)
    (task : TaskId)
    (read : CardRead)
    (stored : StoredTask) : Prop where
  shown : w.broker.getTaskTriageCard task = some read
  succeeded : read.card.state = some .repairSucceeded
  source : before.getTask task = .ok (some stored)
  row : env.saves task = true →
    ∃ row, w.rows task = some row ∧ (RecordAgrees row read.card ↔ LeavesNoVerdict stored event)

/-- What holds between two candidates: the others are as the loop found them. -/
structure Progressed
    (env : TerminalEnv)
    (event : PipelineEvent)
    (before : Broker)
    (progress : TerminalWorld × List TaskId) : Prop where
  kept : ∀ task, task ∉ progress.2 → progress.1.broker.tasks task = before.tasks task
  settled : ∀ task ∈ progress.2, ∃ read stored, Settled env event before progress.1 task read stored

namespace Progressed

variable {env : TerminalEnv} {event : PipelineEvent} {before broker : Broker}
  {progress : TerminalWorld × List TaskId} {stored : StoredTask} {read : CardRead}

theorem unsucceeded
    (corrects : TerminalWorld.Corrects env event progress.1 stored read broker) :
    read.card.state ≠ some .repairSucceeded := by
  intro succeeded
  have binding := corrects.binding
  simp [lateBinding, Broker.stateExpected, succeeded, lateCardStates] at binding

theorem fresh
    (progressed : Progressed env event before progress)
    (corrects : TerminalWorld.Corrects env event progress.1 stored read broker) :
    stored.taskId ∉ progress.2 := by
  intro earlier
  obtain ⟨shown, _, settled⟩ := progressed.settled _ earlier
  have same := Option.some.inj (corrects.bound.symm.trans settled.shown)
  exact unsucceeded corrects (same ▸ settled.succeeded)

theorem shows
    (present : event.sha ≠ "")
    (corrects : TerminalWorld.Corrects env event progress.1 stored read broker) :
    ∃ card, broker.getTaskTriageCard stored.taskId = some ⟨stored.taskId, read.cardId, card⟩ ∧
      card.state = some .repairSucceeded ∧ card.bindingPipelineId = event.pipelineId ∧
      card.bindingPipelineSha = event.sha := by
  obtain ⟨link, _⟩ := Broker.getTaskTriageCard_some corrects.bound
  have changed := Broker.correctLateRepairTerminal_accepted corrects.accepted
  refine ⟨broker.cards read.cardId, ?_, ?_, ?_, ?_⟩
  · simp [Broker.getTaskTriageCard, changed, link, Broker.terminalCard, CardHash.exists_]
  · simp [changed, Broker.terminalCard]
  · simp [changed, Broker.terminalCard, CardHash.bindingPipelineId, CardHash.effectivePipelineId,
      lateCorrection]
  · simp [changed, Broker.terminalCard, CardHash.bindingPipelineSha, lateCorrection,
      textOr_of_ne _ present]

theorem reads
    (progressed : Progressed env event before progress)
    (source : before.getTask stored.taskId = .ok (some stored))
    (corrects : TerminalWorld.Corrects env event progress.1 stored read broker) :
    broker.getTask stored.taskId = .ok (some (correctedTask stored event)) := by
  have changed := Broker.correctLateRepairTerminal_accepted corrects.accepted
  rw [Broker.getTask, ← progressed.kept _ (progressed.fresh corrects)] at source
  simp only [Broker.getTask, changed, Broker.notify_tasks, Broker.updCard_tasks,
    Broker.updTask_tasks, Function.update_self]
  exact TaskHash.read_written source _ _

theorem settles
    (progressed : Progressed env event before progress)
    (present : event.sha ≠ "")
    (source : before.getTask stored.taskId = .ok (some stored))
    (corrects : TerminalWorld.Corrects env event progress.1 stored read broker) :
    ∃ shown, Settled env event before
      (({ progress.1 with broker := broker } : TerminalWorld).persistRepairTerminal env
        stored.taskId "").1 stored.taskId shown stored := by
  obtain ⟨card, shown, succeeded, pipelineId, pipelineSha⟩ := shows present corrects
  have now := progressed.reads source corrects
  have candidate := corrects.candidate
  simp only [lateCandidate, Bool.and_eq_true, Bool.or_eq_true, decide_eq_true_eq] at candidate
  obtain ⟨⟨⟨⟨⟨ended, outer⟩, _⟩, _⟩, _⟩, _⟩ := candidate
  have terminal : (correctedTask stored event).status.terminal = true := by
    rcases ended with failed | completed
    · simp [correctedTask, failed, TaskStatus.terminal]
    · simp [correctedTask, completed, TaskStatus.terminal]
  refine ⟨⟨stored.taskId, read.cardId, card⟩, ?_, succeeded, source, ?_⟩
  · rw [(TerminalWorld.persistRepairTerminal_frame _ env stored.taskId "").1]
    exact shown
  · intro saves
    have row := @TerminalWorld.persistRepairTerminal_row
      { progress.1 with broker := broker } env stored.taskId _ now outer terminal saves
    rw [shown] at row
    refine ⟨_, row, ?_⟩
    rw [← leavesNoVerdict_correctedTask]
    exact triageRecord_agrees_iff env.lower (correctedTask stored event) card event succeeded
      rfl rfl rfl pipelineId pipelineSha present

theorem stays
    {task : TaskId} {shown : CardRead} {found : StoredTask}
    (settled : Settled env event before progress.1 task shown found)
    (other : task ≠ stored.taskId)
    (corrects : TerminalWorld.Corrects env event progress.1 stored read broker) :
    Settled env event before
      (({ progress.1 with broker := broker } : TerminalWorld).persistRepairTerminal env
        stored.taskId "").1 task shown found := by
  have changed := Broker.correctLateRepairTerminal_accepted corrects.accepted
  obtain ⟨_, hash⟩ := Broker.getTaskTriageCard_some corrects.bound
  obtain ⟨_, shownHash⟩ := Broker.getTaskTriageCard_some settled.shown
  -- The two cards differ: one stands at success, the other may still be corrected.
  have distinct : shown.cardId ≠ read.cardId := by
    intro same
    have equal : shown.card = read.card := by
      rw [← shownHash, ← hash, same]
    exact unsucceeded corrects (equal ▸ settled.succeeded)
  obtain ⟨kept, rows⟩ := TerminalWorld.persistRepairTerminal_frame
    { progress.1 with broker := broker } env stored.taskId ""
  refine ⟨?_, settled.succeeded, settled.source, ?_⟩
  · rw [kept]
    refine Broker.getTaskTriageCard_congr settled.shown ?_ ?_
    · simp [changed]
    · simp [changed, distinct]
  · intro saves
    rw [rows task other]
    exact settled.row saves

theorem step
    (progressed : Progressed env event before progress)
    (present : event.sha ≠ "")
    (source : before.getTask stored.taskId = .ok (some stored)) :
    Progressed env event before (TerminalWorld.reconcileTask env event progress stored) := by
  rcases TerminalWorld.reconcileTask_cases env event progress stored with
    same | ⟨read, broker, corrects, stepped⟩
  · rw [same]
    exact progressed
  · rw [stepped]
    have changed := Broker.correctLateRepairTerminal_accepted corrects.accepted
    constructor
    · intro task absent
      obtain ⟨earlier, distinct⟩ : task ∉ progress.2 ∧ task ≠ stored.taskId := by
        simpa using absent
      rw [(TerminalWorld.persistRepairTerminal_frame _ env stored.taskId "").1]
      refine Eq.trans ?_ (progressed.kept task earlier)
      simp [changed, distinct]
    · intro task member
      rcases List.mem_append.mp member with earlier | last
      · obtain ⟨shown, found, settled⟩ := progressed.settled task earlier
        have other : task ≠ stored.taskId := by
          rintro rfl
          exact progressed.fresh corrects earlier
        exact ⟨shown, found, stays settled other corrects⟩
      · rw [List.mem_singleton.mp last]
        obtain ⟨shown, settled⟩ := progressed.settles present source corrects
        exact ⟨shown, stored, settled⟩

theorem loop
    (progressed : Progressed env event before progress)
    (present : event.sha ≠ "")
    {candidates : List StoredTask}
    (sources : ∀ stored ∈ candidates, before.getTask stored.taskId = .ok (some stored)) :
    Progressed env event before
      (candidates.foldl (TerminalWorld.reconcileTask env event) progress) := by
  induction candidates generalizing progress with
  | nil =>
      exact progressed
  | cons stored rest ih =>
      rw [List.foldl_cons]
      exact ih (progressed.step present (sources stored List.mem_cons_self))
        fun other member => sources other (List.mem_cons_of_mem stored member)

end Progressed

namespace TerminalWorld

theorem listTerminalRepairCandidates_source
    {w : TerminalWorld} {projectId sha : String} {candidates : List StoredTask}
    (own : w.broker.OwnEnvelopes)
    (listed : w.listTerminalRepairCandidates projectId sha = .ok candidates)
    {stored : StoredTask}
    (member : stored ∈ candidates) :
    sha ≠ "" ∧ w.broker.getTask stored.taskId = .ok (some stored) := by
  obtain ⟨found, mapped, filtered⟩ := bind_eq_ok.mp listed
  cases filtered
  obtain ⟨result, inFound, rfl⟩ := List.mem_filterMap.mp (List.mem_filter.mp member).1
  obtain ⟨task, indexed, read⟩ := mapM_source mapped inFound
  obtain ⟨payload, _⟩ := TaskHash.read_some read
  refine ⟨?_, ?_⟩
  · rintro rfl
    rw [w.unindexed] at indexed
    cases indexed
  · have named : stored.taskId = task := own task stored.envelope payload
    rw [named]
    exact read

/-- The card and the row of a task agree on its outcome. -/
def Agrees (w : TerminalWorld) (task : TaskId) : Prop :=
  ∃ read row, w.broker.getTaskTriageCard task = some read ∧ w.rows task = some row ∧
    RecordAgrees row read.card

end TerminalWorld

/--
After every late success, the row and the card of every task that it corrected
agree exactly when the earlier end of the repair left no verdict in its state.
-/
theorem corrected_record_agrees_iff
    (env : TerminalEnv)
    (w : TerminalWorld)
    (event : PipelineEvent)
    (run : Reaches Broker.step (fun _ _ => True) Broker.empty w.broker)
    (task : TaskId)
    (corrected : task ∈ (w.reconcileLateRepairSuccess env event).2)
    (saves : env.saves task = true) :
    ∃ stored, w.broker.getTask task = .ok (some stored) ∧
      ((w.reconcileLateRepairSuccess env event).1.Agrees task ↔ LeavesNoVerdict stored event) := by
  have own := Broker.ownEnvelopes_of_reaches run
  obtain ⟨shown, stored, settled⟩ : ∃ shown stored, Settled env event w.broker
      (w.reconcileLateRepairSuccess env event).1 task shown stored := by
    unfold TerminalWorld.reconcileLateRepairSuccess at corrected ⊢
    split at corrected
    · cases corrected
    · rename_i success
      rw [if_neg success]
      split at corrected
      · cases corrected
      · rename_i candidates listed
        have sources := fun stored member =>
          @TerminalWorld.listTerminalRepairCandidates_source w event.projectId event.sha candidates
            own listed stored member
        have start : Progressed env event w.broker (w, []) := by
          refine ⟨fun _ _ => rfl, ?_⟩
          intro task member
          cases member
        by_cases present : event.sha = ""
        · -- Under the empty SHA nothing is indexed, so the loop has no candidate.
          have empty : candidates = [] := by
            apply List.eq_nil_iff_forall_not_mem.mpr
            intro stored member
            exact (sources stored member).1 present
          rw [empty] at corrected
          cases corrected
        · exact (start.loop present fun stored member => (sources stored member).2).settled task
            corrected
  refine ⟨stored, settled.source, ?_⟩
  obtain ⟨row, saved, agrees⟩ := settled.row saves
  rw [← agrees]
  constructor
  · rintro ⟨read, other, bound, found, same⟩
    obtain rfl := Option.some.inj (settled.shown.symm.trans bound)
    obtain rfl := Option.some.inj (saved.symm.trans found)
    exact same
  · intro same
    exact ⟨shown, row, settled.shown, saved, same⟩

namespace LateSuccessSample

open Sample

/-- The pipeline that the repair waited for. -/
def event : PipelineEvent where
  projectId := "group/project"
  pipelineId := 12
  sha := "fixed"
  status := "success"
  ref := "feature"
  occurredAt := "today"

/-- The state that the executor stores with a failed pipeline. -/
def state (outcome : String) (actions : List RepairAction) : PipelineRepairState where
  phase := .terminal
  latestPipelineId := 12
  latestPipelineSha := "fixed"
  finalPipelineStatus := "failed"
  failedJobNames := ["build"]
  repairOutcome := outcome
  repairActions := actions

/-- A repair from the click to the end that is shown on its card. -/
def calls (state : PipelineRepairState) (ended : List Op) : List Op :=
  [.card (.save mr "card" 11 card),
    .admission (.enqueueWithCard (click repair "pipeline" [] 0)),
    .task (.assign repair none workerA 2),
    .task (.transition repair .start none {} 3),
    .task (.transition repair .recordRepairState none { pipelineRepairState := some state } 4)] ++
  ended ++
  [.card (.reconcile repair "card" 1
    { items := items
      state := .repairFailed
      statusMarkdown := ""
      currentPipelineId := 12
      currentPipelineSha := "fixed"
      revision := 2 } notice 7)]

/-- The executor ends the task as completed. -/
def completed : List Op :=
  [.task (.transition repair .publish none {} 5), .task (.transition repair .complete none {} 6)]

/-- The worker dies after it has stored the state. -/
def broken : List Op :=
  [.task (.transition repair .fail none { error := some "worker lost" } 5)]

def world (ops : List Op) : TerminalWorld where
  broker := ops.foldl Broker.step Broker.empty
  repairShaTasks := fun projectId sha =>
    if projectId = "group/project" ∧ sha = "fixed" then [repair] else []
  unindexed := by
    intro projectId
    simp
  rows := fun _ => none

def env : TerminalEnv where
  lower := List.map Char.toLower
  saves := fun _ => true
  cardNotification := fun _ _ => notice
  now := 9

theorem world_reached (ops : List Op) :
    Reaches Broker.step (fun _ _ => True) Broker.empty (world ops).broker := by
  apply Reaches.of_follows
  generalize Broker.empty = start
  induction ops generalizing start with
  | nil =>
      trivial
  | cons op rest ih =>
      exact ⟨trivial, ih _⟩

end LateSuccessSample

open LateSuccessSample in
theorem broken_repair_corrected :
    let w := world (calls (state "" []) broken)
    Sample.repair ∈ (w.reconcileLateRepairSuccess env event).2 ∧
      (w.reconcileLateRepairSuccess env event).1.Agrees Sample.repair := by
  intro w
  have corrected : Sample.repair ∈ (w.reconcileLateRepairSuccess env event).2 := by
    decide +kernel
  obtain ⟨stored, read, agrees⟩ :=
    corrected_record_agrees_iff env w event (world_reached _) Sample.repair corrected rfl
  obtain ⟨_, _, repairState, _⟩ := TaskHash.read_some read
  have left : (w.broker.tasks Sample.repair).pipelineRepairState = some (state "" []) := by
    decide +kernel
  rw [left, Option.getD_some] at repairState
  refine ⟨corrected, agrees.mpr ⟨Or.inl (by rw [repairState, state]), ?_⟩⟩
  intro action found
  rw [repairState] at found
  cases found

open LateSuccessSample in
/--
A repair that ended with the verdict `failed` keeps it: the card says that the
repair succeeded, the row that it failed with the pipeline that succeeded.
-/
theorem failed_verdict_survives :
    let w := world (calls (state "failed" [⟨"fixed", 12, "failed"⟩]) completed)
    let after := (w.reconcileLateRepairSuccess env event).1
    Reaches Broker.step (fun _ _ => True) Broker.empty w.broker ∧
      Sample.repair ∈ (w.reconcileLateRepairSuccess env event).2 ∧
      (after.broker.cards "card").state = some .repairSucceeded ∧
      (after.rows Sample.repair).map (fun row =>
        (row.success, row.repairOutcome, row.finalPipelineId, row.finalPipelineStatus)) =
          some (0, "failed", some 12, "failed") ∧
      ¬after.Agrees Sample.repair := by
  intro w after
  have row : (after.rows Sample.repair).map (fun row =>
      (row.success, row.repairOutcome, row.finalPipelineId, row.finalPipelineStatus)) =
        some (0, "failed", some 12, "failed") := by
    decide +kernel
  have shown : (after.broker.getTaskTriageCard Sample.repair).map (·.card.state) =
      some (some .repairSucceeded) := by
    decide +kernel
  refine ⟨world_reached _, by decide +kernel, by decide +kernel, row, ?_⟩
  rintro ⟨read, saved, bound, found, agrees⟩
  rw [bound] at shown
  rw [found] at row
  obtain ⟨success, _⟩ := agrees.outcome.mpr (Option.some.inj shown)
  have zero := congrArg Prod.fst (Option.some.inj row)
  cases success.symm.trans zero

end MrAgent
