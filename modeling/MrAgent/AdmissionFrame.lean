import MrAgent.BrokerFrame

namespace MrAgent

/-!
# What admissions leave alone

An admission writes one task hash afresh. Every other task is kept as by any
other script, no lease key changes, and even the written task keeps its
manifest. The rollback and report admissions refuse an existing child, so they
keep every task that existed.
-/

/-- A script kept every task except possibly one, and no lease key changed. -/
structure Admits (task : TaskId) (before after : Broker) : Prop where
  leases : after.leases = before.leases
  fences : after.fences = before.fences
  others : ∀ other, other ≠ task → TaskKept (before.tasks other) (after.tasks other)
  manifest :
    (after.tasks task).repairCommitManifest = (before.tasks task).repairCommitManifest

namespace Keeps

variable {before after : Broker}

theorem admits
    (keeps : Keeps before after)
    (task : TaskId) :
    Admits task before after :=
  ⟨keeps.leases, keeps.fences, fun other _ => keeps.tasks other, (keeps.tasks task).manifest⟩

theorem of_frame
    (tasks : after.tasks = before.tasks)
    (leases : after.leases = before.leases)
    (fences : after.fences = before.fences) :
    Keeps before after := by
  refine ⟨leases, fences, ?_⟩
  intro task
  rw [tasks]
  exact TaskKept.refl _

theorem then_frame
    {before middle after : Broker}
    (keeps : Keeps before middle)
    (tasks : after.tasks = middle.tasks)
    (leases : after.leases = middle.leases)
    (fences : after.fences = middle.fences) :
    Keeps before after :=
  keeps.trans (of_frame tasks leases fences)

theorem of_task
    {task : TaskId}
    {changed : TaskHash}
    (tasks : after.tasks = Function.update before.tasks task changed)
    (leases : after.leases = before.leases)
    (fences : after.fences = before.fences)
    (kept : TaskKept (before.tasks task) changed) :
    Keeps before after := by
  refine ⟨leases, fences, ?_⟩
  intro other
  rw [tasks]
  by_cases same : other = task
  · subst other
    simpa using kept
  · simpa [same] using TaskKept.refl (before.tasks other)

end Keeps

namespace Admits

variable {task : TaskId} {before middle after : Broker}

theorem after_keeps
    (keeps : Keeps before middle)
    (admits : Admits task middle after) :
    Admits task before after := by
  refine ⟨admits.leases.trans keeps.leases, admits.fences.trans keeps.fences, ?_, ?_⟩
  · intro other different
    exact (keeps.tasks other).trans (admits.others other different)
  · exact admits.manifest.trans (keeps.tasks task).manifest

theorem then_keeps
    (admits : Admits task before middle)
    (keeps : Keeps middle after) :
    Admits task before after := by
  refine ⟨keeps.leases.trans admits.leases, keeps.fences.trans admits.fences, ?_, ?_⟩
  · intro other different
    exact (admits.others other different).trans (keeps.tasks other)
  · exact (keeps.tasks task).manifest.trans admits.manifest

theorem manifests
    {admitted : TaskId}
    {before after : Broker}
    (admits : Admits admitted before after)
    (task : TaskId) :
    (after.tasks task).repairCommitManifest = (before.tasks task).repairCommitManifest := by
  by_cases same : task = admitted
  · subst task
    exact admits.manifest
  · exact (admits.others task same).manifest

end Admits

/--
An admission kept every task, or wrote the task of its envelope afresh between
kept changes.
-/
def Enrolls (envelope : TaskEnvelope) (before after : Broker) : Prop :=
  Keeps before after ∨
    ∃ middle context priority, Keeps before middle ∧
      Keeps (middle.startTask envelope context priority) after

namespace Enrolls

variable {envelope : TaskEnvelope} {before middle after : Broker}

theorem of_keeps
    (keeps : Keeps before after) :
    Enrolls envelope before after :=
  Or.inl keeps

theorem startTask
    (s : Broker)
    (envelope : TaskEnvelope)
    (context : AdmissionContext)
    (priority : Bool) :
    Enrolls envelope s (s.startTask envelope context priority) :=
  Or.inr ⟨s, context, priority, Keeps.refl s, Keeps.refl _⟩

theorem after_keeps
    (keeps : Keeps before middle)
    (enrolls : Enrolls envelope middle after) :
    Enrolls envelope before after := by
  rcases enrolls with kept | ⟨started, context, priority, earlier, later⟩
  · exact Or.inl (keeps.trans kept)
  · exact Or.inr ⟨started, context, priority, keeps.trans earlier, later⟩

theorem then_keeps
    (enrolls : Enrolls envelope before middle)
    (keeps : Keeps middle after) :
    Enrolls envelope before after := by
  rcases enrolls with kept | ⟨started, context, priority, earlier, later⟩
  · exact Or.inl (kept.trans keeps)
  · exact Or.inr ⟨started, context, priority, earlier, later.trans keeps⟩

theorem admits
    (enrolls : Enrolls envelope before after) :
    Admits envelope.taskId before after := by
  rcases enrolls with kept | ⟨started, context, priority, earlier, later⟩
  · exact kept.admits _
  · have written : Admits envelope.taskId started
        (started.startTask envelope context priority) := by
      refine ⟨by simp, by simp, ?_, by simp [enqueuedTask, preparedTask]⟩
      intro other different
      simpa [different] using TaskKept.refl (started.tasks other)
    exact (Admits.after_keeps earlier written).then_keeps later

end Enrolls

/--
A script ended one task: no gate moved, the task kept its payload and a status,
and it did not leave the terminal statuses or the completed one.
-/
structure Finishes (task : TaskId) (before after : Broker) : Prop
    extends Admits task before after where
  gates : after.gates = before.gates
  payload : (after.tasks task).payload = (before.tasks task).payload
  stored : (before.tasks task).status.isSome = true → (after.tasks task).status.isSome = true
  terminal : (before.tasks task).terminal = true → (after.tasks task).terminal = true
  completed :
    (before.tasks task).status = some .completed → (after.tasks task).status = some .completed

namespace Finishes

theorem refl (task : TaskId) (s : Broker) : Finishes task s s :=
  ⟨(Keeps.refl s).admits task, rfl, rfl, id, id, id⟩

variable {task : TaskId}

theorem of_task
    {before after : Broker}
    {changed : TaskHash}
    (tasks : after.tasks = Function.update before.tasks task changed)
    (leases : after.leases = before.leases)
    (fences : after.fences = before.fences)
    (gates : after.gates = before.gates)
    (payload : changed.payload = (before.tasks task).payload)
    (manifest : changed.repairCommitManifest = (before.tasks task).repairCommitManifest)
    (stored : changed.status.isSome = true)
    (terminal : (before.tasks task).terminal = true → changed.terminal = true)
    (completed :
      (before.tasks task).status = some .completed → changed.status = some .completed) :
    Finishes task before after := by
  refine ⟨⟨leases, fences, ?_, ?_⟩, gates, ?_, ?_, ?_, ?_⟩
  · intro other different
    simpa [tasks, different] using TaskKept.refl (before.tasks other)
  · simpa [tasks] using manifest
  · simpa [tasks] using payload
  · simp [tasks, stored]
  · simpa [tasks] using terminal
  · simpa [tasks] using completed

theorem then_quiet
    {before middle after : Broker}
    (finishes : Finishes task before middle)
    (quiet : Quiet middle after) :
    Finishes task before after := by
  refine ⟨finishes.toAdmits.then_keeps quiet.toKeeps, quiet.gates.trans finishes.gates,
    (quiet.tasks task).payload.trans finishes.payload,
    (quiet.tasks task).stored ∘ finishes.stored, ?_, ?_⟩
  · intro terminal
    exact (quiet.tasks task).terminal (finishes.terminal terminal)
  · intro completed
    have middleCompleted := finishes.completed completed
    have middleTerminal : (middle.tasks task).terminal = true :=
      TaskHash.terminal_of_status middleCompleted
    rw [(quiet.tasks task).status middleTerminal, middleCompleted]

end Finishes

namespace Broker

variable (s : Broker)

/-! ## Enqueueing -/

theorem inspectOrRecover_keeps (args : EnqueueArgs) (task : TaskId) :
    Keeps s (s.inspectOrRecover args task).1 := by
  unfold inspectOrRecover
  dsimp only
  split
  · exact Keeps.refl s
  rename_i found
  split
  · rename_i incomplete
    have live : (s.tasks task).terminal = false := by
      simp only [Bool.or_eq_true, not_or, Bool.not_eq_true] at found
      exact found.2
    split
    · exact Keeps.of_task rfl rfl rfl (TaskKept.of_live rfl rfl rfl live)
    · split
      · exact Keeps.of_task rfl rfl rfl (TaskKept.of_same_status rfl rfl rfl)
      · exact Keeps.of_task rfl rfl rfl (TaskKept.of_same_status rfl rfl rfl)
  · exact Keeps.refl s

/--
The pieces of `ENQUEUE_TASK_LUA`: `kept` relates the states around each write
before a task is created, `admitted` those around the whole script.
-/
structure EnqueuePieces
    (args : EnqueueArgs)
    (kept admitted : Broker → Broker → Prop) : Prop where
  trans : ∀ {first middle last}, kept first middle → kept middle last → kept first last
  after : ∀ {first middle last}, kept first middle → admitted middle last → admitted first last
  quiet : ∀ {before after}, kept before after → admitted before after
  inspected : ∀ s task, kept s (inspectOrRecover s args task).1
  released : ∀ s, kept s (setGate s args.scope none)
  deduplicated : ∀ s task, kept s (setDedup s args.envelope.idempotencyKey task)
  created : ∀ s, admitted s (createTask s args)

namespace EnqueuePieces

variable {args : EnqueueArgs} {kept admitted : Broker → Broker → Prop}

theorem enqueueBehindGate
    (pieces : EnqueuePieces args kept admitted) :
    admitted s (s.enqueueBehindGate args).1 := by
  unfold Broker.enqueueBehindGate
  dsimp only
  split
  · exact pieces.created s
  split
  · exact pieces.created s
  rename_i active _
  have inspected := pieces.inspected s active
  split
  all_goals
    rename_i middle result
    rw [result] at inspected
  · exact pieces.quiet (pieces.trans inspected (pieces.deduplicated middle _))
  · exact pieces.quiet (pieces.trans inspected (pieces.deduplicated middle _))
  · split
    · have released := pieces.trans inspected (pieces.released middle)
      exact pieces.after released (pieces.created _)
    · exact pieces.quiet (pieces.trans inspected (pieces.deduplicated middle _))

theorem enqueueTask
    (pieces : EnqueuePieces args kept admitted) :
    admitted s (s.enqueueTask args).1 := by
  unfold Broker.enqueueTask
  split
  · exact pieces.enqueueBehindGate s
  rename_i existing _
  have inspected := pieces.inspected s existing
  split
  all_goals
    rename_i middle result
    rw [result] at inspected
  · exact pieces.quiet inspected
  · exact pieces.quiet inspected
  · have forgotten := pieces.trans inspected (pieces.deduplicated middle none)
    exact pieces.after forgotten (pieces.enqueueBehindGate _)

end EnqueuePieces

theorem enqueueTask_enrolls (args : EnqueueArgs) :
    Enrolls args.envelope s (s.enqueueTask args).1 := by
  have pieces : EnqueuePieces args Keeps (Enrolls args.envelope) :=
    { trans := Keeps.trans
      after := Enrolls.after_keeps
      quiet := Enrolls.of_keeps
      inspected := fun s task => inspectOrRecover_keeps s args task
      released := fun _ => Keeps.of_frame rfl rfl rfl
      deduplicated := fun _ _ => Keeps.of_frame rfl rfl rfl
      created := fun s => Enrolls.startTask s _ _ _ }
  exact pieces.enqueueTask s

/-- The pieces of `ENQUEUE_TASK_WITH_CARD_LUA`. -/
structure CardEnqueuePieces
    (args : CardEnqueueArgs)
    (kept admitted : Broker → Broker → Prop) : Prop where
  refl : ∀ s, kept s s
  trans : ∀ {first middle last}, kept first middle → kept middle last → kept first last
  after : ∀ {first middle last}, kept first middle → admitted middle last → admitted first last
  quiet : ∀ {before after}, kept before after → admitted before after
  released : ∀ s, kept s (setGate s args.scope none)
  deduplicated : ∀ s task, kept s (setDedup s args.envelope.idempotencyKey task)
  touched : ∀ s task, kept s (touchCard args task s)
  forgotten : ∀ s candidate, kept s (forgetCandidate s args candidate)
  candidate : ∀ s candidate incomplete, kept s (admitCandidate s args candidate incomplete).1
  fresh : ∀ s items, admitted s (freshAdmission s args items)
  created : ∀ s, admitted s (touchCard args args.envelope.taskId (createCardTask s args))

namespace CardEnqueuePieces

variable {args : CardEnqueueArgs} {kept admitted : Broker → Broker → Prop}

theorem admitFresh
    (pieces : CardEnqueuePieces args kept admitted) :
    admitted s (s.admitFresh args).1 := by
  unfold Broker.admitFresh
  dsimp only
  split
  · exact pieces.quiet (pieces.refl s)
  split
  · exact pieces.quiet (pieces.refl s)
  · exact pieces.fresh s _

theorem enqueueCategory
    (pieces : CardEnqueuePieces args kept admitted) :
    admitted s (s.enqueueCategory args).1 := by
  unfold Broker.enqueueCategory
  split
  · exact pieces.quiet (pieces.refl s)
  split
  · exact pieces.quiet (pieces.refl s)
  split
  · exact pieces.admitFresh s
  split
  · exact pieces.quiet (pieces.refl s)
  · exact pieces.after (pieces.forgotten s _) (pieces.admitFresh _)
  · exact pieces.quiet (pieces.candidate s _ true)
  · exact pieces.quiet (pieces.candidate s _ false)

theorem enqueueUncategorized
    (pieces : CardEnqueuePieces args kept admitted) :
    admitted s (s.enqueueUncategorized args).1 := by
  unfold Broker.enqueueUncategorized
  split
  · exact pieces.quiet (pieces.touched s _)
  · exact pieces.created s

theorem enqueueWithoutCategory
    (pieces : CardEnqueuePieces args kept admitted) :
    admitted s (s.enqueueWithoutCategory args).1 := by
  unfold Broker.enqueueWithoutCategory
  dsimp only
  split
  · exact pieces.quiet (pieces.trans (pieces.deduplicated s _) (pieces.touched _ _))
  split
  · exact pieces.enqueueUncategorized s
  split
  · exact pieces.enqueueUncategorized s
  split
  · exact pieces.after (pieces.released s) (pieces.enqueueUncategorized _)
  · exact pieces.quiet (pieces.deduplicated s _)

theorem enqueueTaskWithCard
    (pieces : CardEnqueuePieces args kept admitted) :
    admitted s (s.enqueueTaskWithCard args).1 := by
  have rejected : admitted s s := pieces.quiet (pieces.refl s)
  unfold Broker.enqueueTaskWithCard
  dsimp only
  split
  · exact rejected
  repeat' split
  all_goals first
    | exact rejected
    | exact pieces.enqueueCategory s
    | exact pieces.enqueueWithoutCategory s

end CardEnqueuePieces

theorem completeCandidate_keeps (args : CardEnqueueArgs) (candidate : TaskId) :
    Keeps s (s.completeCandidate args candidate) := by
  unfold completeCandidate
  dsimp only
  split
  · exact Keeps.of_task rfl rfl rfl (TaskKept.of_same_status rfl rfl rfl)
  · exact Keeps.of_task rfl rfl rfl (TaskKept.of_same_status rfl rfl rfl)

theorem admitCandidate_keeps
    (args : CardEnqueueArgs) (candidate : TaskId) (incomplete : Bool) :
    Keeps s (s.admitCandidate args candidate incomplete).1 := by
  have completed :
      Keeps s (if incomplete then s.completeCandidate args candidate else s) := by
    split
    · exact completeCandidate_keeps s args candidate
    · exact Keeps.refl s
  unfold admitCandidate
  dsimp only
  split
  · exact Keeps.refl s
  · split
    · exact Keeps.refl s
    · dsimp only
      split
      · exact Keeps.then_frame completed rfl rfl rfl
      · exact Keeps.then_frame completed rfl rfl rfl

theorem forgetCandidate_keeps (args : CardEnqueueArgs) (candidate : TaskId) :
    Keeps s (s.forgetCandidate args candidate) := by
  unfold forgetCandidate
  dsimp only
  repeat' split
  all_goals exact Keeps.of_frame rfl rfl rfl

theorem enqueueTaskWithCard_enrolls (args : CardEnqueueArgs) :
    Enrolls args.envelope s (s.enqueueTaskWithCard args).1 := by
  have fresh : ∀ s items, Enrolls args.envelope s (freshAdmission s args items) := by
    intro s items
    rw [freshAdmission_eq]
    exact (Enrolls.startTask s _ _ _).then_keeps (Keeps.of_frame rfl rfl rfl)
  have pieces : CardEnqueuePieces args Keeps (Enrolls args.envelope) :=
    { refl := Keeps.refl
      trans := Keeps.trans
      after := Enrolls.after_keeps
      quiet := Enrolls.of_keeps
      released := fun _ => Keeps.of_frame rfl rfl rfl
      deduplicated := fun _ _ => Keeps.of_frame rfl rfl rfl
      touched := fun _ _ => Keeps.of_frame rfl rfl rfl
      forgotten := fun s candidate => forgetCandidate_keeps s args candidate
      candidate := fun s candidate => admitCandidate_keeps s args candidate
      fresh := fresh
      created := fun s => (Enrolls.startTask s _ _ _).then_keeps (Keeps.of_frame rfl rfl rfl) }
  exact pieces.enqueueTaskWithCard s

theorem admitPostRepairUt_enrolls (args : PostRepairUtArgs) :
    Enrolls args.envelope s (s.admitPostRepairUt args).1 := by
  have created : Enrolls args.envelope s (s.createPostRepairUt args) :=
    (Enrolls.startTask s _ _ _).then_keeps (Keeps.of_frame rfl rfl rfl)
  unfold admitPostRepairUt
  dsimp only
  repeat' split
  all_goals first
    | exact Enrolls.of_keeps (Keeps.refl s)
    | exact created

theorem finishAdmission_quiet
    (mr : MrKey) (task : TaskId) (context : AdmissionContext) (now : Time) :
    Quiet s (s.finishAdmission mr task context now) := by
  unfold finishAdmission
  dsimp only
  split
  · exact Quiet.of_task rfl rfl rfl rfl (TaskKept.of_same_status rfl rfl rfl)
  · exact Quiet.of_task rfl rfl rfl rfl (TaskKept.of_same_status rfl rfl rfl)

theorem reconcileAdmissionGate_settles (mr : MrKey) (task : TaskId) (now : Time) :
    Settles s (s.reconcileAdmissionGate mr task now).1 := by
  -- A release after kept changes that leave the holder dead.
  have released :
      ∀ middle : Broker,
        Quiet s middle →
        (middle.tasks task).live = false →
        Settles s (middle.releaseGate mr task) := by
    intro middle quiet dead
    have tasks : (middle.releaseGate mr task).tasks = middle.tasks := by
      unfold releaseGate
      dsimp only
      split <;> rfl
    refine ⟨quiet.toKeeps.trans (Keeps.of_frame tasks ?_ ?_), ?_⟩
    · unfold releaseGate
      dsimp only
      split <;> rfl
    · unfold releaseGate
      dsimp only
      split <;> rfl
    · intro scope
      unfold releaseGate
      dsimp only
      split
      · rename_i held
        by_cases same : scope = some mr
        · subst scope
          refine Or.inr ⟨by simp, ?_⟩
          intro holder holds
          rw [← quiet.gates, held] at holds
          cases holds
          exact dead
        · exact Or.inl (by simp [same, quiet.gates])
      · exact Or.inl (congrFun quiet.gates scope)
  have failed :
      (s.tasks task).terminal = false → Settles s (s.failAdmission mr task now) := by
    intro live
    refine released _ (Quiet.of_task rfl rfl rfl rfl (TaskKept.of_live rfl rfl rfl live)) ?_
    simp [TaskHash.live, TaskHash.terminal, TaskStatus.terminal]
  unfold reconcileAdmissionGate
  dsimp only
  split
  · exact (Quiet.refl s).settles
  split
  · rename_i dead
    refine released s (Quiet.refl s) ?_
    simp only [Bool.or_eq_true, Bool.not_eq_true'] at dead
    rcases dead with missing | terminal
    · simp [TaskHash.live, missing]
    · simp [TaskHash.live, terminal]
  rename_i found
  have live : (s.tasks task).terminal = false := by
    simp only [Bool.or_eq_true, not_or, Bool.not_eq_true] at found
    exact found.2
  split
  · split
    · split
      · exact (Quiet.refl s).settles
      · split
        · exact (finishAdmission_quiet s mr task _ now).settles
        · exact failed live
    · exact failed live
  · split
    · refine Quiet.settles ?_
      exact Quiet.of_frame rfl rfl rfl rfl
    · exact (Quiet.refl s).settles

/-! ## Rollbacks and reports -/

theorem repointPausedAuto_quiet (args : RollbackArgs) (now : Time) :
    Quiet s (s.repointPausedAuto args now) := by
  unfold repointPausedAuto
  split
  · exact Quiet.refl s
  · split
    · exact Quiet.of_task rfl rfl rfl rfl (TaskKept.of_same_status rfl rfl rfl)
    · exact Quiet.refl s

theorem settledRepair_kept
    {stored : TaskHash} {card : CardHash} (args : RollbackArgs) (now : Time)
    (admissible : rollbackTriggerOk stored card args = true) :
    TaskKept stored (settledRepair args now stored) := by
  have canceled :
      (stored.status == some .completed || stored.status == some .failed) = false →
        stored.terminal = true → some TaskStatus.canceled = stored.status := by
    intro unfinished terminal
    simp only [Bool.or_eq_false_iff, beq_eq_false_iff_ne] at unfinished
    exact (TaskHash.canceled_of_terminal terminal unfinished.1 unfinished.2).symm
  unfold rollbackTriggerOk at admissible
  cases trigger : args.trigger with
  | postRepair =>
      simpa only [settledRepair, trigger] using TaskKept.refl stored
  | other text =>
      simpa only [settledRepair, trigger] using TaskKept.refl stored
  | cancel =>
      simp only [trigger, Bool.and_eq_true, Bool.not_eq_true'] at admissible
      simp only [settledRepair, trigger]
      exact ⟨rfl, rfl, fun _ => rfl, canceled admissible.2⟩
  | postRepairUtCancel =>
      simp only [trigger, Bool.and_eq_true, Bool.not_eq_true'] at admissible
      simp only [settledRepair, trigger]
      exact ⟨rfl, rfl, fun _ => rfl, canceled admissible.1.2⟩
  | autoFailure =>
      simp only [trigger] at admissible
      split at admissible
      · simp only [Bool.and_eq_true, beq_iff_eq] at admissible
        simp only [settledRepair, trigger]
        exact TaskKept.of_live rfl rfl rfl (TaskHash.terminal_of_status admissible.1.1)
      · cases admissible
  | postRepairUtFailure =>
      simp only [trigger, Bool.and_eq_true, Bool.or_eq_true, beq_iff_eq] at admissible
      simp only [settledRepair, trigger]
      rcases admissible.1 with running | publishing
      · exact TaskKept.of_live rfl rfl rfl (TaskHash.terminal_of_status running)
      · exact TaskKept.of_live rfl rfl rfl (TaskHash.terminal_of_status publishing)

theorem settledRepair_terminal
    {stored : TaskHash} {card : CardHash} (args : RollbackArgs) (now : Time)
    (admissible : rollbackTriggerOk stored card args = true) :
    (settledRepair args now stored).terminal = true := by
  unfold rollbackTriggerOk at admissible
  cases trigger : args.trigger with
  | postRepair =>
      simp only [trigger, Bool.or_eq_true, beq_iff_eq] at admissible
      simp only [settledRepair, trigger]
      rcases admissible with completed | failed
      · exact TaskHash.terminal_of_status completed
      · exact TaskHash.terminal_of_status failed
  | other text =>
      simp [trigger] at admissible
  | cancel =>
      simp only [settledRepair, trigger]
      rfl
  | autoFailure =>
      simp only [settledRepair, trigger]
      rfl
  | postRepairUtFailure =>
      simp only [settledRepair, trigger]
      rfl
  | postRepairUtCancel =>
      simp only [settledRepair, trigger]
      rfl

theorem settleRepair_quiet
    {card : CardHash} (args : RollbackArgs) (now : Time)
    (admissible : rollbackTriggerOk (s.tasks args.repairTask) card args = true) :
    Quiet s (s.settleRepair args now) := by
  have changed :
      Quiet s (s.updTask args.repairTask (settledRepair args now)) :=
    Quiet.of_task rfl rfl rfl rfl (settledRepair_kept args now admissible)
  have ended : Quiet s (s.endRepair args now) :=
    changed.trans (Quiet.dropOwnerTask _ _ _)
  unfold settleRepair
  split
  · exact Quiet.refl s
  · exact Quiet.refl s
  · have left : Quiet s ((s.endRepair args now).setPipelineWaiting args.repairTask none) :=
      ended.trans (Quiet.of_frame rfl rfl rfl rfl)
    exact left.trans (repointPausedAuto_quiet _ args now)
  · have left :
        Quiet s (((s.endRepair args now).setActiveRepair args.repairTask none).setPipelineWaiting
          args.repairTask none) :=
      ended.trans (Quiet.of_frame rfl rfl rfl rfl)
    exact left.trans (repointPausedAuto_quiet _ args now)
  · exact ended.trans (Quiet.of_frame rfl rfl rfl rfl)
  · exact ended.trans (Quiet.of_frame rfl rfl rfl rfl)

theorem settleRepair_terminal
    {card : CardHash} (args : RollbackArgs) (now : Time)
    (admissible : rollbackTriggerOk (s.tasks args.repairTask) card args = true) :
    ((s.settleRepair args now).tasks args.repairTask).terminal = true := by
  have settled := settledRepair_terminal args now admissible
  have ended : ((s.endRepair args now).tasks args.repairTask).terminal = true := by
    simpa [endRepair] using settled
  unfold settleRepair
  cases trigger : args.trigger with
  | postRepair =>
      simpa [settledRepair, trigger] using settled
  | other text =>
      simpa [settledRepair, trigger] using settled
  | cancel =>
      exact ((repointPausedAuto_quiet _ args now).tasks args.repairTask).terminal ended
  | autoFailure =>
      exact ((repointPausedAuto_quiet _ args now).tasks args.repairTask).terminal ended
  | postRepairUtFailure =>
      exact ended
  | postRepairUtCancel =>
      exact ended

theorem createRollback_admits (count : Nat) (args : RollbackArgs) (now : Time) :
    Admits args.rollbackTask s (s.createRollback count args now) := by
  have marked :
      Keeps s (s.updTask args.repairTask fun t =>
        { t with repairRollbackState := some args.state, updatedAt := some now }) :=
    Keeps.of_task rfl rfl rfl (TaskKept.of_same_status rfl rfl rfl)
  refine Admits.after_keeps marked ⟨rfl, rfl, ?_, ?_⟩
  · intro other different
    simpa [createRollback, different] using TaskKept.refl _
  · simp [createRollback]

/-- What the rollback admission checks before its first write. -/
structure RollbackAdmissible (args : RollbackArgs) : Prop where
  present : (s.tasks args.repairTask).exists_ = true
  manifest : ∃ manifest, (s.tasks args.repairTask).repairCommitManifest = some manifest ∧
    manifest.frozen = true ∧ manifest.entries ≠ [] ∧ manifest.authorizedActorId = args.senderId
  message : (s.cards args.cardId).openMessageId = some args.openMessageId
  receiver : (s.cards args.cardId).receiveId = some args.senderId
  fresh : (s.tasks args.rollbackTask).exists_ = false
  revision : (s.cards args.cardId).revision = some args.revision
  trigger : rollbackTriggerOk (s.tasks args.repairTask) (s.cards args.cardId) args = true
  gate : ∀ holder, s.gates (some args.mr) = some holder →
    holder = args.repairTask ∨ holder = args.rollbackTask

/--
The rollback admission changes nothing and does not answer 1, or it passed
every check of its script.
-/
theorem admitRepairRollback_cases (args : RollbackArgs) (now : Time) :
    ((s.admitRepairRollback args now).1 = s ∧ (s.admitRepairRollback args now).2.1 ≠ 1) ∨
      (s.RollbackAdmissible args ∧ (s.admitRepairRollback args now).2.1 = 1 ∧
        ∃ count, (s.admitRepairRollback args now).1 =
          (s.settleRepair args now).createRollback count args now) := by
  unfold admitRepairRollback
  dsimp only
  split
  · exact Or.inl ⟨rfl, by simp⟩
  rename_i found
  split
  · exact Or.inl ⟨rfl, by simp⟩
  rename_i manifest stored
  split
  · exact Or.inl ⟨rfl, by simp⟩
  rename_i complete
  split
  · exact Or.inl ⟨rfl, by simp⟩
  rename_i allowed
  split
  · exact Or.inl ⟨rfl, by simp⟩
  rename_i fresh
  split
  · exact Or.inl ⟨rfl, by simp⟩
  rename_i current
  split
  · exact Or.inl ⟨rfl, by simp⟩
  rename_i admissible
  split
  · exact Or.inl ⟨rfl, by simp⟩
  rename_i free
  simp only [Bool.or_eq_true, Bool.not_eq_true', not_or, Bool.not_eq_false] at found
  simp only [Bool.or_eq_true, Bool.not_eq_true', not_or, Bool.not_eq_false,
    List.isEmpty_iff] at complete
  simp only [Bool.or_eq_true, decide_eq_true_eq, not_or, not_not] at allowed
  obtain ⟨⟨⟨_, message⟩, receiver⟩, actor⟩ := allowed
  refine Or.inr ⟨⟨found.1, ⟨manifest, stored, complete.1, complete.2, actor⟩, message, receiver,
    by simpa using fresh, not_not.mp current, by simpa using admissible, ?_⟩, rfl, _, rfl⟩
  intro holder held
  simp only [held, Bool.and_eq_true, decide_eq_true_eq, ne_eq, not_and, not_not,
    Option.some.injEq, reduceCtorEq, not_false_eq_true, true_and] at free
  exact Classical.or_iff_not_imp_left.mpr free

theorem admitRepairRollback_admits (args : RollbackArgs) (now : Time) :
    Keeps s (s.admitRepairRollback args now).1 ∨
      ((s.tasks args.rollbackTask).exists_ = false ∧
        Admits args.rollbackTask s (s.admitRepairRollback args now).1) := by
  rcases admitRepairRollback_cases s args now with
    ⟨same, _⟩ | ⟨admissible, _, count, changed⟩
  · rw [same]
    exact Or.inl (Keeps.refl s)
  · refine Or.inr ⟨admissible.fresh, ?_⟩
    rw [changed]
    have settled := settleRepair_quiet s args now admissible.trigger
    exact Admits.after_keeps settled.toKeeps (createRollback_admits _ _ args now)

/-- The writes of `COMPLETE_REPAIR_ROLLBACK_LUA`. -/
def endRollback (args : CompleteRollbackArgs) (now : Time) : Broker :=
  let ended := s.updTask args.rollbackTask fun t =>
    { t with
      status := some args.taskStatus
      repairRollbackState := some args.state
      result := some args.result
      error := some (if args.succeeded then "" else args.state.failureMessage)
      updatedAt := some now }
  let recorded := ended.updTask args.repairTask fun t =>
    { t with repairRollbackState := some args.state, updatedAt := some now }
  let shown := recorded.updCard args.cardId (completeRollbackCard args now)
  (shown.setActiveRepair args.rollbackTask none).dropOwnerTask
    (s.tasks args.rollbackTask).workerId args.rollbackTask

theorem completeRepairRollback_cases
    (lease : Option MrLease) (args : CompleteRollbackArgs) (now : Time) :
    (s.completeRepairRollback lease args now).1 = s ∨
      ((s.tasks args.rollbackTask).status ≠ some .completed ∧
        (s.completeRepairRollback lease args now).1 = s.endRollback args now) := by
  unfold completeRepairRollback
  dsimp only
  split
  · exact Or.inl rfl
  split
  · exact Or.inl rfl
  split
  · exact Or.inl rfl
  split
  · exact Or.inl rfl
  split
  · exact Or.inl rfl
  rename_i open_
  refine Or.inr ⟨?_, rfl⟩
  intro completed
  simp [completed] at open_

theorem completeRepairRollback_finishes
    (lease : Option MrLease) (args : CompleteRollbackArgs) (now : Time) :
    Finishes args.rollbackTask s (s.completeRepairRollback lease args now).1 := by
  rcases completeRepairRollback_cases s lease args now with same | ⟨notCompleted, changed⟩
  · rw [same]
    exact Finishes.refl _ s
  rw [changed]
  have ended :
      Finishes args.rollbackTask s (s.updTask args.rollbackTask fun t =>
        { t with
          status := some args.taskStatus
          repairRollbackState := some args.state
          result := some args.result
          error := some (if args.succeeded then "" else args.state.failureMessage)
          updatedAt := some now }) := by
    refine Finishes.of_task rfl rfl rfl rfl rfl rfl rfl ?_ ?_
    · intro _
      simp only [TaskHash.terminal, CompleteRollbackArgs.taskStatus]
      split <;> rfl
    · intro completed
      exact absurd completed notCompleted
  refine ended.then_quiet ?_
  refine Quiet.trans ?_ (Quiet.dropOwnerTask _ _ _)
  exact Quiet.of_task rfl rfl rfl rfl (TaskKept.of_same_status rfl rfl rfl)

theorem admitFinalRepairReport_admits (args : ReportArgs) (now : Time) :
    Keeps s (s.admitFinalRepairReport args now).1 ∨
      ((s.tasks args.reportTask).exists_ = false ∧
        ((s.admitFinalRepairReport args now).1.tasks args.reportTask).payload =
          some args.envelope ∧
        ((s.admitFinalRepairReport args now).1.tasks args.reportTask).status = some .queued ∧
        Admits args.reportTask s (s.admitFinalRepairReport args now).1) := by
  have marked :
      Keeps s (s.updTask args.repairTask fun t =>
        { t with finalRepairReportState := some args.state, updatedAt := some now }) :=
    Keeps.of_task rfl rfl rfl (TaskKept.of_same_status rfl rfl rfl)
  unfold admitFinalRepairReport
  dsimp only
  split
  · exact Or.inl (Keeps.refl s)
  split
  · exact Or.inl (Keeps.refl s)
  split
  · exact Or.inl (Keeps.refl s)
  split
  · exact Or.inl (Keeps.refl s)
  split
  · exact Or.inl (Keeps.refl s)
  rename_i fresh
  refine Or.inr ⟨by simpa using fresh, by simp, by simp,
    Admits.after_keeps marked ⟨rfl, rfl, ?_, ?_⟩⟩
  · intro other different
    simpa [different] using TaskKept.refl _
  · simp

theorem admitFinalRepairReport_gates (args : ReportArgs) (now : Time) :
    (s.admitFinalRepairReport args now).1.gates = s.gates := by
  unfold admitFinalRepairReport
  dsimp only
  repeat' split
  all_goals rfl

theorem setFinalRepairReportState_quiet
    (repairTask reportTask : TaskId) (state : FinalRepairReportState) (now : Time) :
    Quiet s (s.setFinalRepairReportState repairTask reportTask state now).1 := by
  unfold setFinalRepairReportState
  dsimp only
  split
  · exact Quiet.refl s
  split
  · exact Quiet.refl s
  · dsimp only
    refine Quiet.updTask ?_ ?_
    · exact Quiet.of_task rfl rfl rfl rfl (TaskKept.of_same_status rfl rfl rfl)
    · exact TaskKept.of_same_status rfl rfl rfl

theorem completeFinalRepairReport_finishes (args : CompleteReportArgs) (now : Time) :
    Finishes args.reportTask s (s.completeFinalRepairReport args now).1 := by
  unfold completeFinalRepairReport
  dsimp only
  split
  · exact Finishes.refl _ s
  split
  · split
    · exact Finishes.refl _ s
    · exact Finishes.refl _ s
  have ended :
      Finishes args.reportTask s (s.updTask args.reportTask fun t =>
        { t with
          status := some .completed
          result := some args.result
          error := some ""
          finalRepairReportState := some args.state
          updatedAt := some now }) :=
    Finishes.of_task rfl rfl rfl rfl rfl rfl rfl (fun _ => rfl) (fun _ => rfl)
  refine ended.then_quiet ?_
  refine Quiet.trans ?_ (Quiet.dropOwnerTask _ _ _)
  split
  · exact Quiet.of_task rfl rfl rfl rfl (TaskKept.of_same_status rfl rfl rfl)
  · exact Quiet.of_task rfl rfl rfl rfl (TaskKept.of_same_status rfl rfl rfl)

end Broker

/-! ## All operations -/

/-- What an operation other than a lease or a manifest call does to the tasks. -/
inductive TaskChange (op : Op) (before after : Broker) : Prop
  | kept (keeps : Keeps before after)
  | requested (task : TaskId) (names : op.requests task) (admits : Admits task before after)
  | created (task : TaskId) (absent : (before.tasks task).exists_ = false)
      (admits : Admits task before after)
  | ended (task : TaskId) (names : op.completes task) (finishes : Finishes task before after)

namespace TaskChange

variable {op : Op} {before after : Broker}

theorem leases
    (change : TaskChange op before after) :
    after.leases = before.leases ∧ after.fences = before.fences := by
  cases change with
  | kept keeps =>
      exact ⟨keeps.leases, keeps.fences⟩
  | requested task names admits =>
      exact ⟨admits.leases, admits.fences⟩
  | created task absent admits =>
      exact ⟨admits.leases, admits.fences⟩
  | ended task names finishes =>
      exact ⟨finishes.leases, finishes.fences⟩

theorem manifest
    (change : TaskChange op before after)
    (task : TaskId) :
    (after.tasks task).repairCommitManifest = (before.tasks task).repairCommitManifest := by
  cases change with
  | kept keeps =>
      exact (keeps.tasks task).manifest
  | requested _ _ admits =>
      exact admits.manifests task
  | created _ _ admits =>
      exact admits.manifests task
  | ended _ _ finishes =>
      exact finishes.manifests task

end TaskChange

namespace Broker

variable (s : Broker)

variable (op : Op)

/-- Every operation other than a lease or a manifest call changes tasks in one of four ways. -/
theorem step_change
    (notLease : ∀ leaseOp, op ≠ .lease leaseOp)
    (notManifest : ∀ manifestOp, op ≠ .manifest manifestOp) :
    TaskChange op s (s.step op) := by
  cases op with
  | lease op =>
      exact absurd rfl (notLease op)
  | effect op =>
      exact .kept (effectStep_quiet s op).toKeeps
  | manifest op =>
      exact absurd rfl (notManifest op)
  | task op =>
      exact .kept (taskStep_settles s op).toKeeps
  | auto op =>
      exact .kept (autoStep_settles s op).toKeeps
  | pipeline op =>
      exact .kept (pipelineStep_quiet s op).toKeeps
  | admission op =>
      cases op with
      | enqueue args =>
          exact .requested _ rfl (enqueueTask_enrolls s args).admits
      | enqueueWithCard args =>
          exact .requested _ rfl (enqueueTaskWithCard_enrolls s args).admits
      | postRepairUt args =>
          exact .requested _ rfl (admitPostRepairUt_enrolls s args).admits
      | reconcile mr task now =>
          exact .kept (reconcileAdmissionGate_settles s mr task now).toKeeps
  | rollback op =>
      cases op with
      | admitRollback args now =>
          rcases admitRepairRollback_admits s args now with kept | ⟨absent, admitted⟩
          · exact .kept kept
          · exact .created _ absent admitted
      | complete lease args now =>
          exact .ended _ rfl (completeRepairRollback_finishes s lease args now)
      | admitReport args now =>
          rcases admitFinalRepairReport_admits s args now with kept | ⟨absent, _, _, admitted⟩
          · exact .kept kept
          · exact .created _ absent admitted
      | setReportState repairTask reportTask state now =>
          exact .kept (setFinalRepairReportState_quiet s repairTask reportTask state now).toKeeps
      | completeReport args now =>
          exact .ended _ rfl (completeFinalRepairReport_finishes s args now)
  | card op =>
      exact .kept (cardStep_quiet s op).toKeeps
  | expiry op =>
      exact .kept (expiryStep_quiet s op).toKeeps

theorem leaseStep_frame (op : LeaseOp) :
    ∃ leases fences, s.leaseStep op = { s with leases := leases, fences := fences } := by
  cases op with
  | claim mr worker =>
      dsimp only [leaseStep, claimMr]
      split <;> exact ⟨_, _, rfl⟩
  | renew lease =>
      dsimp only [leaseStep, renewMr]
      split <;> exact ⟨_, _, rfl⟩
  | release lease =>
      dsimp only [leaseStep, releaseMr]
      split <;> exact ⟨_, _, rfl⟩
  | revoke lease =>
      dsimp only [leaseStep, revokeMr]
      repeat' split
      all_goals exact ⟨_, _, rfl⟩
  | expire mr =>
      exact ⟨_, _, rfl⟩

theorem step_leases
    (notLease : ∀ leaseOp, op ≠ .lease leaseOp) :
    (s.step op).leases = s.leases ∧ (s.step op).fences = s.fences := by
  by_cases manifestCall : ∃ manifestOp, op = .manifest manifestOp
  · obtain ⟨manifestOp, rfl⟩ := manifestCall
    rcases manifestStep_cases s manifestOp with same | ⟨task, manifest, now, changed⟩
    · simp [step, same]
    · simp [step, changed]
  · have change := step_change s op notLease fun manifestOp equal =>
      manifestCall ⟨manifestOp, equal⟩
    exact change.leases

theorem step_manifest
    (notManifest : ∀ manifestOp, op ≠ .manifest manifestOp)
    (task : TaskId) :
    ((s.step op).tasks task).repairCommitManifest = (s.tasks task).repairCommitManifest := by
  by_cases leaseCall : ∃ leaseOp, op = .lease leaseOp
  · obtain ⟨leaseOp, rfl⟩ := leaseCall
    obtain ⟨leases, fences, changed⟩ := leaseStep_frame s leaseOp
    rw [step, changed]
  · have change := step_change s op (fun leaseOp equal => leaseCall ⟨leaseOp, equal⟩) notManifest
    exact change.manifest task

end Broker

end MrAgent
