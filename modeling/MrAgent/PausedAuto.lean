import MrAgent.AdmissionFrame

namespace MrAgent

open TransitionSystem

/-!
# Paused automatic workflows stay resumable

A workflow that yields to a repair is recorded in its own hash, in the pointer
of the merge request, and by the repair at the gate. The records agree unless a
repair is canceled without its live lease, a rollback does not re-point the
workflow, or the reconciler releases the gate of an ended repair.
-/

/-- The workflow is paused by the repair. -/
def PausedBy (s : Broker) (auto triage : TaskId) : Prop :=
  (s.tasks auto).status = some .pausedByTriage ∧
    (s.tasks auto).auto.pausedByTriageTaskId = some triage

/-- Some workflow is paused by the repair. -/
def Pauses (s : Broker) (triage : TaskId) : Prop :=
  ∃ auto, PausedBy s auto triage

/--
Every paused workflow names the repair that paused it, the merge request
points to the workflow, and the repair holds the gate.
-/
def Resumable (mr : MrKey) (s : Broker) : Prop :=
  ∀ auto, (s.tasks auto).status = some .pausedByTriage →
    ∃ triage, (s.tasks auto).auto.pausedByTriageTaskId = some triage ∧
      s.pausedAuto (some mr) = some auto ∧ s.gates (some mr) = some triage

/-- No workflow became paused, and pauses, pointer and gate stayed as they were. -/
structure PausesKept (mr : MrKey) (before after : Broker) : Prop where
  tasks : ∀ auto, (after.tasks auto).status = some .pausedByTriage →
    (before.tasks auto).status = some .pausedByTriage ∧
      (after.tasks auto).auto.pausedByTriageTaskId =
        (before.tasks auto).auto.pausedByTriageTaskId
  pausedAuto : after.pausedAuto (some mr) = before.pausedAuto (some mr)
  gate : after.gates (some mr) = before.gates (some mr)

theorem PausesKept.refl (mr : MrKey) (s : Broker) : PausesKept mr s s :=
  ⟨fun _ paused => ⟨paused, rfl⟩, rfl, rfl⟩

theorem Resumable.of_kept
    {mr : MrKey}
    {before after : Broker}
    (resumable : Resumable mr before)
    (kept : PausesKept mr before after) :
    Resumable mr after := by
  intro auto paused
  obtain ⟨pausedBefore, same⟩ := kept.tasks auto paused
  obtain ⟨triage, by_, pointer, gate⟩ := resumable auto pausedBefore
  exact ⟨triage, by rw [same, by_], by rw [kept.pausedAuto, pointer], by rw [kept.gate, gate]⟩

variable {s : Broker}

theorem Resumable.unique
    {mr : MrKey}
    (resumable : Resumable mr s)
    {auto pointed : TaskId}
    (paused : (s.tasks auto).status = some .pausedByTriage)
    (pointer : s.pausedAuto (some mr) = some pointed) :
    auto = pointed := by
  obtain ⟨_, _, own, _⟩ := resumable auto paused
  rw [own] at pointer
  exact Option.some.inj pointer

/-- The worker that holds the repair still has the lease of the merge request. -/
def OwnerLeaseLive (mr : MrKey) (s : Broker) (task : TaskId) : Prop :=
  ∃ worker token, (s.tasks task).workerId = some worker ∧
    (s.tasks task).fencingToken = some token ∧ s.leases mr = some (worker, token)

/-- The reconciler can finish the half-written admission of the task. -/
def Broker.recoverable (s : Broker) (mr : MrKey) (task : TaskId) : Bool :=
  match (s.tasks task).admissionContext, (s.tasks task).payload with
  | some context, some envelope =>
    match envelope.mr with
    | none => true
    | some owner =>
      owner = mr && (context.cardId = "" ||
        Broker.reconcileCardValid context mr task (s.cards context.cardId))
  | _, _ => false

/-- While a workflow is paused by the repair, a cancellation needs its live lease, a rollback a
trigger that re-points the workflow, and the reconciler a repair whose gate it keeps. -/
def KeepsPaused (mr : MrKey) (s : Broker) : Op → Prop
  | .lease _ => True
  | .task (.transition _ call _ _ _) => call ≠ .pause
  | .task (.requestCancel _ args _ _ _) => args.mr = mr
  | .task (.finalizeCancel task _ args _) =>
    args.mr = mr ∧
      (Pauses s task → (s.tasks task).cancelRequested = true → OwnerLeaseLive mr s task)
  | .auto (.pause _ _ _ lease _) => lease.mr = mr
  | .auto (.resume _ lease _) => lease.mr = mr
  | .rollback (.admitRollback args _) =>
    args.mr = mr ∧
      (Pauses s args.repairTask → args.trigger = .cancel ∨ args.trigger = .autoFailure)
  | .rollback (.complete _ args _) => args.mr = mr
  | .admission (.reconcile target task _) =>
    target = mr ∧
      (Pauses s task → (s.tasks task).live = true ∧
        ((s.tasks task).admissionIncomplete = true → s.recoverable mr task = true))
  | _ => False

namespace Broker

variable {s : Broker} {mr : MrKey}

theorem transitionTask_pauses
    (task : TaskId)
    (expected : List TaskStatus)
    (target : TaskStatus)
    (lease : Option MrLease)
    (fields : TransitionFields)
    (now : Time)
    (other : target ≠ .pausedByTriage) :
    PausesKept mr s (s.transitionTask task expected target lease fields now).1 := by
  rcases s.transitionTask_cases task expected target lease fields now with
    ⟨reply, _, refused⟩ | ⟨_, _, activeRepairs, changed⟩
  · rw [refused]
    exact PausesKept.refl mr s
  · rw [changed]
    refine ⟨?_, rfl, rfl⟩
    intro auto paused
    by_cases same : auto = task
    · subst auto
      simp [transitioned, TransitionFields.write, other] at paused
    · simpa [same] using paused

theorem requestRepairCancel_pauses
    (task : TaskId)
    (args : CancelArgs)
    (statusMarkdown : String)
    (notification : NotificationEnvelope)
    (now : Time) :
    PausesKept mr s (s.requestRepairCancel task args statusMarkdown notification now).1 := by
  unfold requestRepairCancel
  dsimp only
  repeat' split
  all_goals try exact PausesKept.refl mr s
  refine ⟨?_, rfl, rfl⟩
  intro auto paused
  by_cases same : auto = task
  · subst auto
    simpa [markCancelRequested] using paused
  · simpa [markCancelRequested, same] using paused

theorem completeRepairRollback_pauses
    (lease : Option MrLease)
    (args : CompleteRollbackArgs)
    (now : Time) :
    PausesKept mr s (s.completeRepairRollback lease args now).1 := by
  rcases completeRepairRollback_cases s lease args now with same | ⟨_, changed⟩
  · rw [same]
    exact PausesKept.refl mr s
  rw [changed]
  refine ⟨?_, by simp [endRollback], by simp [endRollback]⟩
  intro auto paused
  have unpaused : some args.taskStatus ≠ some TaskStatus.pausedByTriage := by
    unfold CompleteRollbackArgs.taskStatus
    split <;> simp
  by_cases rollback : auto = args.rollbackTask
  · subst auto
    by_cases repair : args.rollbackTask = args.repairTask
    · simp [endRollback, ← repair, unpaused] at paused
    · simp [endRollback, repair, unpaused] at paused
  · by_cases repair : auto = args.repairTask
    · subst auto
      simpa [endRollback, rollback] using paused
    · simpa [endRollback, rollback, repair] using paused

theorem pauseAutoForTriage_resumable
    (task triageTask : TaskId)
    (cursor : AutoCursor)
    (lease : MrLease)
    (now : Time)
    (own : lease.mr = mr)
    (resumable : Resumable mr s) :
    Resumable mr (s.pauseAutoForTriage task triageTask cursor lease now).1 := by
  subst own
  unfold pauseAutoForTriage
  dsimp only
  split
  · exact resumable
  rename_i running
  split
  · exact resumable
  split
  · exact resumable
  rename_i gate
  split
  · exact resumable
  rename_i free
  intro auto paused
  by_cases same : auto = task
  · subst auto
    exact ⟨triageTask, by simp, by simp, by simpa using gate⟩
  · exfalso
    have earlier : (s.tasks auto).status = some .pausedByTriage := by
      simpa [same] using paused
    obtain ⟨_, _, pointer, _⟩ := resumable auto earlier
    simp [pointer, same] at free

theorem resumeAutoAfterTriage_resumable
    (triageTask : TaskId)
    (lease : MrLease)
    (now : Time)
    (own : lease.mr = mr)
    (resumable : Resumable mr s) :
    Resumable mr (s.resumeAutoAfterTriage triageTask lease now).1 := by
  subst own
  unfold resumeAutoAfterTriage
  dsimp only
  split
  · exact resumable
  split
  · exact resumable
  split
  · exact resumable
  cases pointer : s.pausedAuto (some lease.mr) with
  | none =>
      intro auto paused
      obtain ⟨_, _, own, _⟩ := resumable auto paused
      rw [pointer] at own
      cases own
  | some pointed =>
      dsimp only
      split
      · exact resumable
      · intro auto paused
        exfalso
        by_cases same : auto = pointed
        · subst auto
          simp [restartAuto] at paused
        · have earlier : (s.tasks auto).status = some .pausedByTriage := by
            simpa [restartAuto, same] using paused
          exact same (resumable.unique earlier pointer)

theorem finalizeCancelCard_frame (task : TaskId) (args : FinalizeCancelArgs) (now : Time) :
    (s.finalizeCancelCard task args now).tasks = s.tasks ∧
      (s.finalizeCancelCard task args now).leases = s.leases ∧
      (s.finalizeCancelCard task args now).gates = s.gates ∧
      (s.finalizeCancelCard task args now).pausedAuto = s.pausedAuto := by
  unfold finalizeCancelCard
  split
  · exact ⟨rfl, rfl, rfl, rfl⟩
  · exact ⟨rfl, rfl, rfl, rfl⟩

theorem finalizeCancelAuto_paused
    {task auto : TaskId}
    {owner : Option (WorkerId × Option Nat)}
    {now : Time}
    (paused : ((s.finalizeCancelAuto task mr owner now).tasks auto).status =
      some .pausedByTriage) :
    (s.tasks auto).status = some .pausedByTriage := by
  unfold finalizeCancelAuto at paused
  split at paused
  · rename_i pointed worker token _
    split at paused
    · by_cases same : auto = pointed
      · subst auto
        simp [restartAuto] at paused
      · simpa [restartAuto, same] using paused
    · exact paused
  · exact paused

theorem finalizeCancelAuto_restarts
    {task auto : TaskId}
    {worker : WorkerId}
    {token : Nat}
    (now : Time)
    (pointer : s.pausedAuto (some mr) = some auto)
    (paused : PausedBy s auto task)
    (lease : s.leases mr = some (worker, token)) :
    ((s.finalizeCancelAuto task mr (some (worker, some token)) now).tasks auto).status =
      some .assigned := by
  simp [finalizeCancelAuto, pointer, lease, paused.1, paused.2, restartAuto]

theorem finalizeRepairCancel_resumable
    (task : TaskId)
    (lease : Option MrLease)
    (args : FinalizeCancelArgs)
    (now : Time)
    (own : args.mr = mr)
    (live : Pauses s task → (s.tasks task).cancelRequested = true → OwnerLeaseLive mr s task)
    (resumable : Resumable mr s) :
    Resumable mr (s.finalizeRepairCancel task lease args now).1 := by
  subst own
  unfold finalizeRepairCancel
  dsimp only
  split
  · exact resumable
  split
  · exact resumable
  rename_i requested
  split
  · exact resumable
  split
  · exact resumable
  split
  · exact resumable
  rename_i gateFree
  dsimp only
  obtain ⟨tasks, leases, _, pausedAuto⟩ :=
    finalizeCancelCard_frame (s := s.finalizeCancelTask task args now) task args now
  rw [finalizeCancelTask_tasks] at tasks
  rw [finalizeCancelTask_leases] at leases
  rw [finalizeCancelTask_pausedAuto] at pausedAuto
  intro auto pausedAfter
  exfalso
  have pausedMiddle := finalizeCancelAuto_paused pausedAfter
  have different : auto ≠ task := by
    rintro rfl
    simp [tasks, canceledTask] at pausedMiddle
  have paused : (s.tasks auto).status = some .pausedByTriage := by
    simpa [tasks, different] using pausedMiddle
  obtain ⟨triage, by_, pointer, gate⟩ := resumable auto paused
  have same : triage = task := by
    simpa [gate] using gateFree
  subst triage
  obtain ⟨worker, token, ownerWorker, ownerToken, held⟩ :=
    live ⟨auto, paused, by_⟩ (by simpa using requested)
  have restarted := finalizeCancelAuto_restarts now ((congrFun pausedAuto _).trans pointer)
    ⟨pausedMiddle, by simpa [tasks, different] using by_⟩ ((congrFun leases _).trans held)
  rw [ownerWorker, Option.map_some, ownerToken, restarted] at pausedAfter
  cases pausedAfter

theorem repointPausedAuto_pauses (args : RollbackArgs) (now : Time) (auto : TaskId) :
    ((s.repointPausedAuto args now).tasks auto).status = (s.tasks auto).status ∧
      (s.repointPausedAuto args now).pausedAuto = s.pausedAuto ∧
      ((s.tasks auto).auto.pausedByTriageTaskId ≠ some args.repairTask →
        ((s.repointPausedAuto args now).tasks auto).auto.pausedByTriageTaskId =
          (s.tasks auto).auto.pausedByTriageTaskId) := by
  unfold repointPausedAuto
  split
  · exact ⟨rfl, rfl, fun _ => rfl⟩
  · rename_i pointed _
    split
    · rename_i byRepair
      by_cases same : auto = pointed
      · subst auto
        exact ⟨by simp, rfl, fun other => absurd byRepair other⟩
      · exact ⟨by simp [same], rfl, fun _ => by simp [same]⟩
    · exact ⟨rfl, rfl, fun _ => rfl⟩

variable {args : RollbackArgs}

theorem repointPausedAuto_moves
    {auto : TaskId}
    (now : Time)
    (pointer : s.pausedAuto (some args.mr) = some auto)
    (byRepair : (s.tasks auto).auto.pausedByTriageTaskId = some args.repairTask) :
    ((s.repointPausedAuto args now).tasks auto).auto.pausedByTriageTaskId =
      some args.rollbackTask := by
  simp [repointPausedAuto, pointer, byRepair]

theorem settleRepair_pauses
    (args : RollbackArgs)
    (now : Time)
    {auto : TaskId}
    (different : auto ≠ args.repairTask) :
    ((s.settleRepair args now).tasks auto).status = (s.tasks auto).status ∧
      (s.settleRepair args now).pausedAuto = s.pausedAuto ∧
      ((s.tasks auto).auto.pausedByTriageTaskId ≠ some args.repairTask →
        ((s.settleRepair args now).tasks auto).auto.pausedByTriageTaskId =
          (s.tasks auto).auto.pausedByTriageTaskId) := by
  have ended : (s.endRepair args now).tasks auto = s.tasks auto := by
    simp [endRepair, different]
  have pointer : (s.endRepair args now).pausedAuto = s.pausedAuto := by
    simp [endRepair]
  unfold settleRepair
  split
  · exact ⟨rfl, rfl, fun _ => rfl⟩
  · exact ⟨rfl, rfl, fun _ => rfl⟩
  · simpa [ended, pointer] using repointPausedAuto_pauses
      (s := (s.endRepair args now).setPipelineWaiting args.repairTask none) args now auto
  · simpa [ended, pointer] using repointPausedAuto_pauses
      (s := ((s.endRepair args now).setActiveRepair args.repairTask none).setPipelineWaiting
        args.repairTask none) args now auto
  · exact ⟨by simp [ended], by simp [pointer], fun _ => by simp [ended]⟩
  · exact ⟨by simp [ended], by simp [pointer], fun _ => by simp [ended]⟩

theorem settleRepair_moves
    {auto : TaskId}
    (now : Time)
    (different : auto ≠ args.repairTask)
    (repoints : args.trigger = .cancel ∨ args.trigger = .autoFailure)
    (pointer : s.pausedAuto (some args.mr) = some auto)
    (byRepair : (s.tasks auto).auto.pausedByTriageTaskId = some args.repairTask) :
    ((s.settleRepair args now).tasks auto).auto.pausedByTriageTaskId =
      some args.rollbackTask := by
  have ended : (s.endRepair args now).tasks auto = s.tasks auto := by
    simp [endRepair, different]
  have pointed : (s.endRepair args now).pausedAuto = s.pausedAuto := by
    simp [endRepair]
  unfold settleRepair
  rcases repoints with cancel | autoFailure
  · simp only [cancel]
    exact repointPausedAuto_moves now (by simp [pointed, pointer]) (by simp [ended, byRepair])
  · simp only [autoFailure]
    exact repointPausedAuto_moves now (by simp [pointed, pointer]) (by simp [ended, byRepair])

theorem admitRepairRollback_resumable
    (args : RollbackArgs)
    (now : Time)
    (own : args.mr = mr)
    (repoints :
      Pauses s args.repairTask → args.trigger = .cancel ∨ args.trigger = .autoFailure)
    (resumable : Resumable mr s) :
    Resumable mr (s.admitRepairRollback args now).1 := by
  subst own
  rcases admitRepairRollback_cases s args now with
    ⟨same, _⟩ | ⟨admissible, _, count, changed⟩
  · rw [same]
    exact resumable
  rw [changed]
  intro auto paused
  have notRollback : auto ≠ args.rollbackTask := by
    rintro rfl
    simp [createRollback] at paused
  have notRepair : auto ≠ args.repairTask := by
    rintro rfl
    have ended := settleRepair_terminal s args now admissible.trigger
    have unfinished : ((s.settleRepair args now).tasks args.repairTask).status =
        some .pausedByTriage := by
      simpa [createRollback, notRollback] using paused
    rw [TaskHash.terminal_of_status unfinished] at ended
    cases ended
  have created : ((s.settleRepair args now).createRollback count args now).tasks auto =
      (s.settleRepair args now).tasks auto := by
    simp [createRollback, notRollback, notRepair]
  obtain ⟨status, pausedAuto, unmoved⟩ := settleRepair_pauses (s := s) args now notRepair
  rw [created, status] at paused
  obtain ⟨triage, by_, pointer, gate⟩ := resumable auto paused
  have pointerAfter : ((s.settleRepair args now).createRollback count args now).pausedAuto
      (some args.mr) = some auto := by
    rw [← pointer, ← pausedAuto]
    rfl
  have gateAfter : ((s.settleRepair args now).createRollback count args now).gates
      (some args.mr) = some args.rollbackTask := by
    simp [createRollback]
  refine ⟨args.rollbackTask, ?_, pointerAfter, gateAfter⟩
  rw [created]
  rcases admissible.gate triage gate with isRepair | isRollback
  · subst triage
    exact settleRepair_moves now notRepair (repoints ⟨auto, paused, by_⟩) pointer by_
  · subst triage
    rw [unmoved, by_]
    rw [by_]
    intro same
    have absent := admissible.fresh
    rw [Option.some.inj same, admissible.present] at absent
    cases absent

theorem releaseGate_tasks (task : TaskId) : (s.releaseGate mr task).tasks = s.tasks := by
  unfold releaseGate
  dsimp only
  split <;> rfl

theorem failAdmission_frame (task : TaskId) (now : Time) {auto : TaskId}
    (paused : ((s.failAdmission mr task now).tasks auto).status = some .pausedByTriage) :
    (s.tasks auto).status = some .pausedByTriage := by
  unfold failAdmission at paused
  dsimp only at paused
  rw [releaseGate_tasks] at paused
  by_cases same : auto = task
  · subst auto
    simp at paused
  · simpa [same] using paused

theorem finishAdmission_pauses
    (task : TaskId) (context : AdmissionContext) (now : Time) :
    PausesKept mr s (s.finishAdmission mr task context now) := by
  have tasks :
      (s.finishAdmission mr task context now).tasks =
        Function.update s.tasks task
          { enqueuedTask s.nextMessageId (s.tasks task) with updatedAt := some now } := by
    unfold finishAdmission
    dsimp only
    split <;> rfl
  refine ⟨?_, ?_, ?_⟩
  · intro auto paused
    rw [tasks] at paused ⊢
    by_cases same : auto = task
    · subst auto
      simpa [enqueuedTask] using paused
    · simpa [same] using paused
  · unfold finishAdmission
    dsimp only
    split <;> rfl
  · unfold finishAdmission
    dsimp only
    split <;> rfl

theorem reconcileAdmissionGate_resumable
    (task : TaskId)
    (now : Time)
    (keeps : Pauses s task → (s.tasks task).live = true ∧
      ((s.tasks task).admissionIncomplete = true → s.recoverable mr task = true))
    (resumable : Resumable mr s) :
    Resumable mr (s.reconcileAdmissionGate mr task now).1 := by
  unfold reconcileAdmissionGate
  dsimp only
  split
  · exact resumable
  rename_i atGate
  have gate : s.gates (some mr) = some task := not_not.mp atGate
  -- Whatever is paused here is paused by the task at the gate.
  have pauses : ∀ auto, (s.tasks auto).status = some .pausedByTriage → Pauses s task := by
    intro auto paused
    obtain ⟨triage, by_, _, held⟩ := resumable auto paused
    rw [gate] at held
    cases held
    exact ⟨auto, paused, by_⟩
  split
  · rename_i ended
    intro auto paused
    exfalso
    rw [releaseGate_tasks] at paused
    obtain ⟨live, _⟩ := keeps (pauses auto paused)
    simp only [TaskHash.live, Bool.and_eq_true, Bool.not_eq_true'] at live
    simp [live.1, live.2] at ended
  split
  · rename_i incomplete
    -- A given-up admission has no paused workflow behind it.
    have givenUp :
        s.recoverable mr task = false → Resumable mr (s.failAdmission mr task now) := by
      intro lost auto paused
      exfalso
      have recoverable := (keeps (pauses auto (failAdmission_frame task now paused))).2 incomplete
      rw [lost] at recoverable
      cases recoverable
    cases context : (s.tasks task).admissionContext with
    | none =>
        exact givenUp (by simp [recoverable, context])
    | some context' =>
        cases payload : (s.tasks task).payload with
        | none =>
            exact givenUp (by simp [recoverable, context, payload])
        | some envelope =>
            cases owner : envelope.mr with
            | none =>
                simpa only [owner] using resumable
            | some owner' =>
                simp only [owner]
                split
                · exact resumable.of_kept (finishAdmission_pauses task context' now)
                · rename_i invalid
                  refine givenUp ?_
                  simpa [recoverable, context, payload, owner] using invalid
  · split
    · exact resumable.of_kept ⟨fun _ paused => ⟨paused, rfl⟩, rfl, rfl⟩
    · exact resumable

theorem step_resumable
    (op : Op)
    (allowed : KeepsPaused mr s op)
    (resumable : Resumable mr s) :
    Resumable mr (s.step op) := by
  unfold KeepsPaused at allowed
  split at allowed
  · rename_i leaseOp
    obtain ⟨leases, fences, changed⟩ := leaseStep_frame s leaseOp
    rw [step, changed]
    exact resumable
  · rename_i task call lease fields now
    refine resumable.of_kept (transitionTask_pauses task _ _ lease fields now ?_)
    intro target
    cases call with
    | pause =>
        exact allowed rfl
    | finishUnitTests status final =>
        rcases final with rfl | rfl <;> cases target
    | cancelUnitTests status final =>
        rcases final with rfl | rfl <;> cases target
    | _ =>
        cases target
  · rename_i task args statusMarkdown notification now
    exact resumable.of_kept
      (requestRepairCancel_pauses task args statusMarkdown notification now)
  · rename_i task lease args now
    exact finalizeRepairCancel_resumable task lease args now allowed.1 allowed.2 resumable
  · rename_i task triageTask cursor lease now
    exact pauseAutoForTriage_resumable task triageTask cursor lease now allowed resumable
  · rename_i triageTask lease now
    exact resumeAutoAfterTriage_resumable triageTask lease now allowed resumable
  · rename_i args now
    exact admitRepairRollback_resumable args now allowed.1 allowed.2 resumable
  · rename_i lease args now
    exact resumable.of_kept (completeRepairRollback_pauses lease args now)
  · rename_i target task now
    obtain ⟨rfl, keeps⟩ := allowed
    exact reconcileAdmissionGate_resumable task now keeps resumable
  · cases allowed

end Broker

theorem Resumable.resume
    {mr : MrKey}
    {auto triage : TaskId}
    (resumable : Resumable mr s)
    (paused : PausedBy s auto triage)
    (ended : (s.tasks triage).terminal = true)
    {lease : MrLease}
    (own : lease.mr = mr)
    (held : s.holds lease = true)
    (now : Time) :
    (s.resumeAutoAfterTriage triage lease now).2 = 1 ∧
      ((s.resumeAutoAfterTriage triage lease now).1.tasks auto).status = some .assigned := by
  obtain ⟨by_, same, pointer, gate⟩ := resumable auto paused.1
  rw [paused.2] at same
  cases same
  subst own
  simp [Broker.resumeAutoAfterTriage, gate, held, ended, pointer, paused.1, paused.2,
    Broker.restartAuto]

/-- In every run whose steps keep the workflow paused, a paused workflow is the one the merge
request points to, its repair holds the gate, and resuming the ended repair restarts it. -/
theorem paused_auto_resumable
    {mr : MrKey}
    {start final : Broker}
    (unpaused : ∀ task, (start.tasks task).status ≠ some .pausedByTriage)
    (run : Reaches Broker.step (KeepsPaused mr) start final)
    {auto triage : TaskId}
    (paused : PausedBy final auto triage) :
    final.pausedAuto (some mr) = some auto ∧ final.gates (some mr) = some triage ∧
      ∀ lease now, lease.mr = mr → final.holds lease = true →
        (final.tasks triage).terminal = true →
        (final.resumeAutoAfterTriage triage lease now).2 = 1 ∧
          ((final.resumeAutoAfterTriage triage lease now).1.tasks auto).status =
            some .assigned := by
  have resumable : Resumable mr final := by
    refine Reaches.invariant (Resumable mr) ?_ run ?_
    · intro state op inv allowed
      exact Broker.step_resumable op allowed inv
    · intro task pausedTask
      exact absurd pausedTask (unpaused task)
  obtain ⟨by_, same, pointer, gate⟩ := resumable auto paused.1
  rw [paused.2] at same
  cases same
  refine ⟨pointer, gate, ?_⟩
  intro lease now own held ended
  exact resumable.resume paused ended own held now

namespace PausedReview

open Sample

def auto : TaskId := ⟨"auto", by decide⟩

def lease : MrLease := ⟨mr, workerA, 1⟩

def pause : Op :=
  .auto (.pause auto repair ⟨1, ["/review"], "sha"⟩ lease 4)

/-- A review and a repair of the same merge request, both running. -/
def running : Broker :=
  let started := Broker.empty.leaseStep (.claim mr workerA)
  let started := started.updTask auto fun t => { t with status := some .running }
  let started := started.updTask repair fun t => { t with status := some .running }
  started.setGate (some mr) (some repair)

/-- The review yields and the repair fails. -/
def ended : Broker :=
  (running.step pause).step (.task (.transition repair .fail (some lease) {} 5))

/--
The review runs when the repair is clicked, yields to it, and the repair is
canceled before any worker takes it.
-/
def canceled : Broker :=
  [.card (.save mr "card" 11 card),
    .admission (.enqueue ⟨envelope auto .autoWorkflow "/auto" "auto", false⟩),
    .lease (.claim mr workerA),
    .task (.assign auto (some lease) workerA 2),
    .task (.transition auto .start (some lease) {} 3),
    .admission (.enqueueWithCard (click repair "pipeline" [] 0)),
    .card (.transition "card" [.pipelineFailed] .repairQueued "" 3),
    pause,
    .task (.requestCancel repair ⟨mr, "card", "message", "author", 1⟩ "" notice
      5),
    .task (.finalizeCancel repair none ⟨mr, "card", items, "", 2, notice⟩
      6)].foldl Broker.step Broker.empty

end PausedReview

open Sample PausedReview in
theorem paused_review_resumed :
    (ended.resumeAutoAfterTriage repair lease 6).2 = 1 ∧
      ((ended.resumeAutoAfterTriage repair lease 6).1.tasks auto).status = some .assigned := by
  have unpaused : ∀ task, (running.tasks task).status ≠ some .pausedByTriage := by
    intro task
    by_cases isRepair : task = repair
    · subst task
      decide
    by_cases isAuto : task = auto
    · subst task
      decide
    · simp [running, isRepair, isAuto, Broker.leaseStep, Broker.claimMr, Broker.empty]
  have run : Reaches Broker.step (KeepsPaused mr) running ended := by
    refine ((Reaches.refl running).snoc pause rfl).snoc _ ?_
    intro same
    cases same
  have paused : PausedBy ended auto repair := by
    unfold PausedBy
    decide +kernel
  exact (paused_auto_resumable unpaused run paused).2.2 lease 6 rfl (by decide +kernel)
    (by decide +kernel)

open Sample PausedReview in
/--
The cancellation of a repair that was never assigned frees the gate and leaves
the review paused by it; no resume of the repair restarts the review.
-/
theorem canceled_repair_strands_review :
    PausedBy canceled auto repair ∧ (canceled.tasks repair).status = some .canceled ∧
      canceled.gates (some mr) = none ∧
      (canceled.resumeAutoAfterTriage repair lease 7).2 = 0 := by
  unfold PausedBy
  decide +kernel

end MrAgent
