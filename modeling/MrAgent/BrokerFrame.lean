import MrAgent.BrokerOperation

namespace MrAgent

/-!
# What the broker's scripts leave alone

Every later invariant starts from the same question: which keys can a script
change, and how can it change a task. The answer is given once per script
here. `TaskKept` says that a task keeps its payload, its manifest and a
terminal status; `Keeps` lifts it to the whole state and adds the lease keys;
`Quiet` adds the triage gates.
-/

/--
A script kept the payload, the manifest and any terminal status of a task, and
did not remove its status.
-/
structure TaskKept (before after : TaskHash) : Prop where
  payload : after.payload = before.payload
  manifest : after.repairCommitManifest = before.repairCommitManifest
  stored : before.status.isSome = true → after.status.isSome = true
  status : before.terminal = true → after.status = before.status

namespace TaskKept

theorem refl (task : TaskHash) : TaskKept task task :=
  ⟨rfl, rfl, id, fun _ => rfl⟩

theorem trans
    {first middle last : TaskHash}
    (left : TaskKept first middle)
    (right : TaskKept middle last) :
    TaskKept first last := by
  refine ⟨right.payload.trans left.payload, right.manifest.trans left.manifest,
    right.stored ∘ left.stored, ?_⟩
  intro terminal
  have same := left.status terminal
  have middleTerminal : middle.terminal = true := by
    rw [TaskHash.terminal, same]
    exact terminal
  exact (right.status middleTerminal).trans same

variable {before after : TaskHash}

theorem of_same_status
    (payload : after.payload = before.payload)
    (manifest : after.repairCommitManifest = before.repairCommitManifest)
    (status : after.status = before.status) :
    TaskKept before after :=
  ⟨payload, manifest, fun stored => status ▸ stored, fun _ => status⟩

theorem of_live
    (payload : after.payload = before.payload)
    (manifest : after.repairCommitManifest = before.repairCommitManifest)
    (stored : after.status.isSome = true)
    (live : before.terminal = false) :
    TaskKept before after := by
  refine ⟨payload, manifest, fun _ => stored, ?_⟩
  intro terminal
  rw [live] at terminal
  cases terminal

theorem terminal
    (kept : TaskKept before after)
    (terminal : before.terminal = true) :
    after.terminal = true := by
  rw [TaskHash.terminal, kept.status terminal]
  exact terminal

end TaskKept

/-- The task exists and is not terminal. -/
def TaskHash.live (task : TaskHash) : Bool :=
  task.exists_ && !task.terminal

variable {status : TaskStatus} {task : TaskHash}

theorem TaskHash.terminal_of_status
    (stored : task.status = some status) :
    task.terminal = status.terminal := by
  simp [TaskHash.terminal, stored]

theorem TaskHash.canceled_of_terminal
    (terminal : task.terminal = true)
    (notCompleted : task.status ≠ some .completed)
    (notFailed : task.status ≠ some .failed) :
    task.status = some .canceled := by
  cases stored : task.status with
  | none =>
      simp [TaskHash.terminal, stored] at terminal
  | some status =>
      cases status <;> simp_all [TaskHash.terminal, TaskStatus.terminal]

/-- A script changed no lease key and kept every task. -/
structure Keeps (before after : Broker) : Prop where
  leases : after.leases = before.leases
  fences : after.fences = before.fences
  tasks : ∀ task, TaskKept (before.tasks task) (after.tasks task)

/-- A script changed no lease key and no gate, and kept every task. -/
structure Quiet (before after : Broker) : Prop extends Keeps before after where
  gates : after.gates = before.gates

namespace Keeps

theorem refl (s : Broker) : Keeps s s :=
  ⟨rfl, rfl, fun task => TaskKept.refl (s.tasks task)⟩

theorem trans
    {first middle last : Broker}
    (left : Keeps first middle)
    (right : Keeps middle last) :
    Keeps first last :=
  ⟨right.leases.trans left.leases, right.fences.trans left.fences,
    fun task => (left.tasks task).trans (right.tasks task)⟩

end Keeps

/--
A script changed no lease key, kept every task, and cleared a gate only when
its holder is not live afterwards.
-/
structure Settles (before after : Broker) : Prop extends Keeps before after where
  gates : ∀ scope,
    after.gates scope = before.gates scope ∨
      (after.gates scope = none ∧
        ∀ holder, before.gates scope = some holder → (after.tasks holder).live = false)

namespace Quiet

theorem refl (s : Broker) : Quiet s s :=
  ⟨Keeps.refl s, rfl⟩

theorem trans
    {first middle last : Broker}
    (left : Quiet first middle)
    (right : Quiet middle last) :
    Quiet first last :=
  ⟨left.toKeeps.trans right.toKeeps, right.gates.trans left.gates⟩

variable {before after : Broker}

theorem of_frame
    (tasks : after.tasks = before.tasks)
    (leases : after.leases = before.leases)
    (fences : after.fences = before.fences)
    (gates : after.gates = before.gates) :
    Quiet before after := by
  refine ⟨⟨leases, fences, ?_⟩, gates⟩
  intro task
  rw [tasks]
  exact TaskKept.refl _

variable {task : TaskId}

theorem of_task
    {changed : TaskHash}
    (tasks : after.tasks = Function.update before.tasks task changed)
    (leases : after.leases = before.leases)
    (fences : after.fences = before.fences)
    (gates : after.gates = before.gates)
    (kept : TaskKept (before.tasks task) changed) :
    Quiet before after := by
  refine ⟨⟨leases, fences, ?_⟩, gates⟩
  intro other
  rw [tasks]
  by_cases same : other = task
  · subst other
    simpa using kept
  · simpa [same] using TaskKept.refl (before.tasks other)

theorem updTask
    {change : TaskHash → TaskHash}
    (quiet : Quiet before after)
    (kept : TaskKept (after.tasks task) (change (after.tasks task))) :
    Quiet before (after.updTask task change) :=
  quiet.trans (of_task rfl rfl rfl rfl kept)

theorem dropOwnerTask (s : Broker) (owner : Option WorkerId) (task : TaskId) :
    Quiet s (s.dropOwnerTask owner task) := by
  cases owner with
  | none =>
      exact refl s
  | some worker =>
      exact of_frame rfl rfl rfl rfl

theorem dropWaiter (s : Broker) (task : TaskId) : Quiet s (s.dropWaiter task) := by
  unfold Broker.dropWaiter
  split
  · exact of_frame rfl rfl rfl rfl
  · exact refl s

theorem settles
    (quiet : Quiet before after) :
    Settles before after :=
  ⟨quiet.toKeeps, fun scope => Or.inl (congrFun quiet.gates scope)⟩

end Quiet

namespace Settles

theorem of_terminal
    {before after : Broker}
    (keeps : Keeps before after)
    (gates : ∀ scope,
      after.gates scope = before.gates scope ∨
        (after.gates scope = none ∧
          ∀ holder, before.gates scope = some holder →
            (after.tasks holder).terminal = true)) :
    Settles before after := by
  refine ⟨keeps, ?_⟩
  intro scope
  rcases gates scope with same | ⟨cleared, holders⟩
  · exact Or.inl same
  · refine Or.inr ⟨cleared, ?_⟩
    intro holder held
    simp [TaskHash.live, holders holder held]

end Settles

theorem TransitionCall.expected_live
    (call : TransitionCall)
    (member : status ∈ call.expected) :
    status.terminal = false := by
  cases call <;> simp only [TransitionCall.expected, List.mem_cons, List.not_mem_nil,
    or_false] at member <;> aesop

namespace Broker

variable (s : Broker)

/-! ## Effects -/

theorem claimEffect_quiet
    (key : String) (task : TaskId) (lease : Option MrLease) (metadata : String) (now : Time) :
    Quiet s (s.claimEffect key task lease metadata now).1 := by
  unfold claimEffect
  split
  · exact Quiet.refl s
  · dsimp only
    split
    · exact Quiet.of_task rfl rfl rfl rfl (TaskKept.of_same_status rfl rfl rfl)
    · exact Quiet.refl s
    · exact Quiet.of_task rfl rfl rfl rfl (TaskKept.of_same_status rfl rfl rfl)

theorem updateEffect_quiet
    (key : String) (lease : Option MrLease) (metadata : String) (now : Time) :
    Quiet s (s.updateEffect key lease metadata now).1 := by
  unfold updateEffect
  split
  · exact Quiet.refl s
  · dsimp only
    split
    · exact Quiet.refl s
    · exact Quiet.of_frame rfl rfl rfl rfl

theorem completeEffect_quiet
    (key : String) (task : TaskId) (lease : Option MrLease) (result : String) (now : Time) :
    Quiet s (s.completeEffect key task lease result now).1 := by
  unfold completeEffect
  split
  · exact Quiet.refl s
  · dsimp only
    split
    · exact Quiet.refl s
    · split
      · exact Quiet.of_task rfl rfl rfl rfl (TaskKept.of_same_status rfl rfl rfl)
      · exact Quiet.of_frame rfl rfl rfl rfl

theorem effectStep_quiet (op : EffectOp) : Quiet s (s.effectStep op) := by
  cases op with
  | claim key task lease metadata now =>
      exact claimEffect_quiet s key task lease metadata now
  | update key lease metadata now =>
      exact updateEffect_quiet s key lease metadata now
  | complete key task lease result now =>
      exact completeEffect_quiet s key task lease result now

/-! ## Manifests -/

theorem manifestStep_cases (op : ManifestOp) :
    s.manifestStep op = s ∨
      ∃ task manifest now,
        s.manifestStep op = s.updTask task fun t =>
          { t with repairCommitManifest := manifest, updatedAt := some now } := by
  cases op with
  | append task lease args now =>
      dsimp only [manifestStep, appendRepairCommit]
      split
      · exact Or.inl rfl
      · unfold appendRepairCommitScript
        split
        · exact Or.inr ⟨task, _, now, rfl⟩
        · exact Or.inl rfl
  | freeze task lease frozenAt now stamped =>
      dsimp only [manifestStep, freezeRepairCommitManifest]
      split
      · exact Or.inl rfl
      split
      · exact Or.inl rfl
      split
      · exact Or.inl rfl
      split
      · exact Or.inl rfl
      · exact Or.inr ⟨task, _, now, rfl⟩

/-! ## Task lifecycle -/

/-- The hash a successful status change leaves. -/
def transitioned (target : TaskStatus) (fields : TransitionFields) (now : Time)
    (stored : TaskHash) : TaskHash :=
  fields.write { stored with status := some target, updatedAt := some now }

theorem transitionTask_cases
    (task : TaskId) (expected : List TaskStatus) (target : TaskStatus) (lease : Option MrLease)
    (fields : TransitionFields) (now : Time) :
    (∃ reply, reply ≠ 1 ∧
        s.transitionTask task expected target lease fields now = (s, reply)) ∨
      ((∃ current ∈ expected, (s.tasks task).status = some current) ∧
        s.leaseOk lease = true ∧
        ∃ activeRepairs,
          s.transitionTask task expected target lease fields now =
            ({ s with
                tasks :=
                  Function.update s.tasks task (transitioned target fields now (s.tasks task))
                activeRepairs := activeRepairs },
              1)) := by
  dsimp only [transitionTask]
  split
  · exact Or.inl ⟨0, by decide, rfl⟩
  · rename_i current stored
    split
    · exact Or.inl ⟨0, by decide, rfl⟩
    · rename_i listed
      split
      · exact Or.inl ⟨-1, by decide, rfl⟩
      · rename_i owned
        refine Or.inr ⟨⟨current, not_not.mp listed, stored⟩, by simpa using owned, ?_⟩
        split
        · exact ⟨_, by simp [updTask, setActiveRepair, transitioned]; rfl⟩
        · exact ⟨s.activeRepairs, by simp [updTask, transitioned]⟩

theorem transitionTask_quiet
    (task : TaskId) (call : TransitionCall) (lease : Option MrLease)
    (fields : TransitionFields) (now : Time) :
    Quiet s (s.transitionTask task call.expected call.target lease fields now).1 := by
  rcases s.transitionTask_cases task call.expected call.target lease fields now with
    ⟨reply, _, refused⟩ | ⟨⟨current, expected, stored⟩, _, activeRepairs, changed⟩
  · rw [refused]
    exact Quiet.refl s
  · have live : (s.tasks task).terminal = false := by
      rw [TaskHash.terminal_of_status stored]
      exact call.expected_live expected
    rw [changed]
    exact Quiet.of_task rfl rfl rfl rfl (TaskKept.of_live rfl rfl rfl live)

theorem assignToWorker_quiet
    (task : TaskId) (lease : Option MrLease) (worker : WorkerId) (now : Time) :
    Quiet s (s.assignToWorker task lease worker now).1 := by
  have assigned : ∀ held, Quiet s (s.assignTask task held worker now).1 := by
    intro held
    unfold assignTask
    split
    · exact Quiet.refl s
    · rename_i queued
      split
      · exact Quiet.refl s
      · have live : (s.tasks task).terminal = false :=
          TaskHash.terminal_of_status (not_not.mp queued)
        exact Quiet.of_task rfl rfl rfl rfl (TaskKept.of_live rfl rfl rfl live)
  unfold assignToWorker
  split
  · split
    · exact Quiet.refl s
    · exact assigned _
  · exact assigned none

theorem heartbeatTask_quiet
    (task : TaskId) (worker : WorkerId) (token : Option Nat) (now : Time) :
    Quiet s (s.heartbeatTask task worker token now).1 := by
  unfold heartbeatTask
  dsimp only
  split
  · exact Quiet.refl s
  · exact Quiet.of_task rfl rfl rfl rfl (TaskKept.of_same_status rfl rfl rfl)

theorem failStaleRunningTask_quiet
    (task : TaskId) (lease : MrLease) (cutoff : Time) (error : String) (now : Time) :
    Quiet s (s.failStaleRunningTask task lease cutoff error now).1 := by
  unfold failStaleRunningTask
  dsimp only
  split
  · exact Quiet.refl s
  · rename_i active
    have live : (s.tasks task).terminal = false := by
      simp only [Bool.and_eq_true, decide_eq_true_eq, not_and_or, not_not] at active
      rcases active with running | publishing
      · exact TaskHash.terminal_of_status running
      · exact TaskHash.terminal_of_status publishing
    split
    · exact Quiet.refl s
    · split
      · exact Quiet.refl s
      · split
        · exact Quiet.refl s
        · exact Quiet.of_task rfl rfl rfl rfl (TaskKept.of_live rfl rfl rfl live)

theorem requeueStaleRepair_quiet
    (task : TaskId) (expected : TaskStatus) (cutoff now : Time) :
    Quiet s (s.requeueStaleRepair task expected cutoff now).1 := by
  unfold requeueStaleRepair
  dsimp only
  split
  · exact Quiet.refl s
  · rename_i due
    dsimp only
    refine Quiet.updTask ?_ (TaskKept.of_same_status rfl rfl rfl)
    split
    · rename_i assigned
      have live : (s.tasks task).terminal = false := by
        simp only [Bool.or_eq_true, decide_eq_true_eq, not_or, not_not] at due
        rw [TaskHash.terminal_of_status due.1, assigned]
        rfl
      have requeued :
          Quiet s ((s.dropOwnerTask (s.tasks task).workerId task).updTask task fun t =>
            { t with
              status := some .queued
              updatedAt := some now
              workerId := none
              fencingToken := none }) := by
        refine Quiet.updTask (Quiet.dropOwnerTask s _ task) ?_
        rw [dropOwnerTask_tasks]
        exact TaskKept.of_live rfl rfl rfl live
      exact requeued.trans (Quiet.of_frame rfl rfl rfl rfl)
    · exact Quiet.of_frame rfl rfl rfl rfl

theorem requeueStaleAutoWorkflow_quiet
    (task : TaskId) (cutoff : Time) (retryLimit : Nat) (now : Time) :
    Quiet s (s.requeueStaleAutoWorkflow task cutoff retryLimit now).1 := by
  unfold requeueStaleAutoWorkflow
  dsimp only
  split
  · exact Quiet.refl s
  · rename_i due
    have live : (s.tasks task).terminal = false := by
      simp only [Bool.or_eq_true, decide_eq_true_eq, not_or, not_not] at due
      exact TaskHash.terminal_of_status due.1
    split
    · exact Quiet.refl s
    · split
      · exact Quiet.of_task rfl rfl rfl rfl (TaskKept.of_live rfl rfl rfl live)
      · exact Quiet.of_task rfl rfl rfl rfl (TaskKept.of_same_status rfl rfl rfl)

theorem retryDeadTask_quiet
    (worker : WorkerId) (task : TaskId) (retryLimit : Nat) (now : Time)
    (live : (s.tasks task).terminal = false) :
    Quiet s (s.retryDeadTask worker task retryLimit now).1 := by
  unfold retryDeadTask
  dsimp only
  split
  · exact Quiet.of_task rfl rfl rfl rfl (TaskKept.of_live rfl rfl rfl live)
  · split
    · exact Quiet.of_task rfl rfl rfl rfl (TaskKept.of_live rfl rfl rfl live)
    · exact Quiet.of_task rfl rfl rfl rfl (TaskKept.of_live rfl rfl rfl live)

theorem recoverDeadTask_quiet
    (worker : WorkerId) (task : TaskId) (retryLimit : Nat) (now : Time) :
    Quiet s (s.recoverDeadTask worker task retryLimit now).1 := by
  unfold recoverDeadTask
  dsimp only
  split
  · exact Quiet.of_frame rfl rfl rfl rfl
  · cases stored : (s.tasks task).status with
    | none =>
        exact Quiet.refl s
    | some status =>
        cases status with
        | queued | waitingPipeline | publishing | canceled =>
            exact Quiet.refl s
        | completed | failed | pausedByTriage =>
            exact Quiet.of_frame rfl rfl rfl rfl
        | assigned | running =>
            exact retryDeadTask_quiet s worker task retryLimit now
              (TaskHash.terminal_of_status stored)

theorem transferOrphanedTask_quiet
    (task : TaskId) (oldWorker : WorkerId) (lease : MrLease) (event : Option PipelineEvent)
    (now : Time) :
    Quiet s (s.transferOrphanedTask task oldWorker lease event now).1 := by
  unfold transferOrphanedTask
  dsimp only
  split
  · exact Quiet.refl s
  · split
    · exact Quiet.refl s
    · split
      · split
        · exact Quiet.of_task rfl rfl rfl rfl (TaskKept.of_same_status rfl rfl rfl)
        · exact Quiet.of_task rfl rfl rfl rfl (TaskKept.of_same_status rfl rfl rfl)
      · exact Quiet.of_task rfl rfl rfl rfl (TaskKept.of_same_status rfl rfl rfl)

theorem recordDeliveryFailure_quiet
    (task : TaskId) (messageId : Nat) (error : String) (now : Time) :
    Quiet s (s.recordDeliveryFailure task messageId error now) :=
  Quiet.of_task rfl rfl rfl rfl (TaskKept.of_same_status rfl rfl rfl)

theorem ackWorkerInbox_quiet (worker : WorkerId) (messageId : Nat) :
    Quiet s (s.ackWorkerInbox worker messageId) :=
  Quiet.of_frame rfl rfl rfl rfl

theorem requestRepairCancel_quiet
    (task : TaskId) (args : CancelArgs) (statusMarkdown : String)
    (notification : NotificationEnvelope) (now : Time) :
    Quiet s (s.requestRepairCancel task args statusMarkdown notification now).1 := by
  unfold requestRepairCancel
  dsimp only
  repeat' split
  all_goals first
    | exact Quiet.refl s
    | exact Quiet.of_task rfl rfl rfl rfl (TaskKept.of_same_status rfl rfl rfl)

theorem requestPostRepairUtCancel_quiet
    (task : TaskId) (args : CancelArgs) (now : Time) :
    Quiet s (s.requestPostRepairUtCancel task args now).1 := by
  unfold requestPostRepairUtCancel
  dsimp only
  repeat' split
  all_goals first
    | exact Quiet.refl s
    | exact Quiet.of_task rfl rfl rfl rfl (TaskKept.of_same_status rfl rfl rfl)

theorem finalizeCancelCard_quiet (task : TaskId) (args : FinalizeCancelArgs) (now : Time) :
    Quiet s (s.finalizeCancelCard task args now) := by
  unfold finalizeCancelCard
  split
  · exact Quiet.refl s
  · exact Quiet.of_frame rfl rfl rfl rfl

theorem restartAuto_quiet
    (auto : TaskId) (worker : WorkerId) (token : Nat) (now : Time)
    (live : (s.tasks auto).terminal = false) :
    Quiet s (s.restartAuto auto worker token now) :=
  Quiet.of_task rfl rfl rfl rfl (TaskKept.of_live rfl rfl rfl live)

theorem finalizeCancelAuto_quiet
    (task : TaskId) (mr : MrKey) (owner : Option (WorkerId × Option Nat)) (now : Time) :
    Quiet s (s.finalizeCancelAuto task mr owner now) := by
  unfold finalizeCancelAuto
  split
  next auto worker token _ =>
    split
    · rename_i restartable
      simp only [Bool.and_eq_true, decide_eq_true_eq] at restartable
      have live : (s.tasks auto).terminal = false :=
        TaskHash.terminal_of_status restartable.1.2
      exact (restartAuto_quiet s auto worker token now live).trans
        (Quiet.of_frame rfl rfl rfl rfl)
    · exact Quiet.refl s
  next =>
    exact Quiet.refl s

theorem finalizeRepairCancel_settles
    (task : TaskId) (lease : Option MrLease) (args : FinalizeCancelArgs) (now : Time) :
    Settles s (s.finalizeRepairCancel task lease args now).1 := by
  unfold finalizeRepairCancel
  dsimp only
  split
  · exact (Quiet.refl s).settles
  split
  · exact (Quiet.refl s).settles
  split
  · exact (Quiet.refl s).settles
  rename_i unfinished
  split
  · exact (Quiet.refl s).settles
  split
  · exact (Quiet.refl s).settles
  have kept : TaskKept (s.tasks task) (canceledTask args.statusMarkdown now (s.tasks task)) := by
    refine ⟨rfl, rfl, fun _ => rfl, ?_⟩
    intro terminal
    simp only [Bool.or_eq_true, decide_eq_true_eq, not_or] at unfinished
    exact (TaskHash.canceled_of_terminal terminal unfinished.1 unfinished.2).symm
  have canceled : Keeps s (s.finalizeCancelTask task args now) := by
    refine ⟨by simp, by simp, ?_⟩
    intro other
    by_cases same : other = task
    · subst other
      simpa using kept
    · simpa [same] using TaskKept.refl (s.tasks other)
  have rest :=
    (finalizeCancelCard_quiet (s.finalizeCancelTask task args now) task args now).trans
      (finalizeCancelAuto_quiet _ task args.mr
        ((s.tasks task).workerId.map fun worker => (worker, (s.tasks task).fencingToken)) now)
  refine Settles.of_terminal (canceled.trans rest.toKeeps) ?_
  intro scope
  rw [rest.gates, finalizeCancelTask_gates]
  split
  · rename_i held
    by_cases same : scope = some args.mr
    · subst scope
      refine Or.inr ⟨by simp, ?_⟩
      intro holder holds
      rw [held] at holds
      cases holds
      refine (rest.tasks task).terminal ?_
      simp [TaskHash.terminal, canceledTask, TaskStatus.terminal]
    · exact Or.inl (by simp [same])
  · exact Or.inl rfl

theorem taskStep_settles (op : TaskOp) : Settles s (s.taskStep op) := by
  cases op with
  | transition task call lease fields now =>
      exact (transitionTask_quiet s task call lease fields now).settles
  | assign task lease worker now =>
      exact (assignToWorker_quiet s task lease worker now).settles
  | heartbeat task worker token now =>
      exact (heartbeatTask_quiet s task worker token now).settles
  | failStale task lease cutoff error now =>
      exact (failStaleRunningTask_quiet s task lease cutoff error now).settles
  | requeueRepair task expected cutoff now =>
      exact (requeueStaleRepair_quiet s task expected cutoff now).settles
  | requeueAuto task cutoff retryLimit now =>
      exact (requeueStaleAutoWorkflow_quiet s task cutoff retryLimit now).settles
  | recoverDead worker task retryLimit now =>
      exact (recoverDeadTask_quiet s worker task retryLimit now).settles
  | transfer task oldWorker lease event now =>
      exact (transferOrphanedTask_quiet s task oldWorker lease event now).settles
  | deliveryFailure task messageId error now =>
      exact (recordDeliveryFailure_quiet s task messageId error now).settles
  | ackInbox worker messageId =>
      exact (ackWorkerInbox_quiet s worker messageId).settles
  | requestCancel task args statusMarkdown notification now =>
      exact (requestRepairCancel_quiet s task args statusMarkdown notification now).settles
  | requestUtCancel task args now =>
      exact (requestPostRepairUtCancel_quiet s task args now).settles
  | finalizeCancel task lease args now =>
      exact finalizeRepairCancel_settles s task lease args now

/-! ## Automatic workflows -/

theorem recordAutoCommandCompleted_quiet
    (task : TaskId) (cursor : AutoCursor) (lease : MrLease) (now : Time) :
    Quiet s (s.recordAutoCommandCompleted task cursor lease now).1 := by
  unfold recordAutoCommandCompleted
  split
  · exact Quiet.refl s
  split
  · exact Quiet.refl s
  · exact Quiet.of_task rfl rfl rfl rfl (TaskKept.of_same_status rfl rfl rfl)

theorem pauseAutoForTriage_quiet
    (task triageTask : TaskId) (cursor : AutoCursor) (lease : MrLease) (now : Time) :
    Quiet s (s.pauseAutoForTriage task triageTask cursor lease now).1 := by
  unfold pauseAutoForTriage
  dsimp only
  split
  · exact Quiet.refl s
  rename_i running
  split
  · exact Quiet.refl s
  split
  · exact Quiet.refl s
  split
  · exact Quiet.refl s
  · have live : (s.tasks task).terminal = false :=
      TaskHash.terminal_of_status (not_not.mp running)
    exact Quiet.of_task rfl rfl rfl rfl (TaskKept.of_live rfl rfl rfl live)

theorem resumeAutoAfterTriage_settles
    (triageTask : TaskId) (lease : MrLease) (now : Time) :
    Settles s (s.resumeAutoAfterTriage triageTask lease now).1 := by
  unfold resumeAutoAfterTriage
  dsimp only
  split
  · exact (Quiet.refl s).settles
  rename_i held
  have holder : s.gates (some lease.mr) = some triageTask := not_not.mp held
  split
  · exact (Quiet.refl s).settles
  split
  · exact (Quiet.refl s).settles
  rename_i finished
  have terminal : (s.tasks triageTask).terminal = true := by simpa using finished
  -- Both remaining branches clear this one gate after changes that keep the holder.
  have cleared :
      ∀ middle after : Broker,
        Quiet s middle →
        after.tasks = middle.tasks → after.leases = middle.leases →
        after.fences = middle.fences →
        after.gates = Function.update middle.gates (some lease.mr) none →
        Settles s after := by
    intro middle after quiet tasks leases fences gates
    have keeps : Keeps s after :=
      quiet.toKeeps.trans ⟨leases, fences, fun task => by rw [tasks]; exact TaskKept.refl _⟩
    refine Settles.of_terminal keeps ?_
    intro scope
    by_cases same : scope = some lease.mr
    · subst scope
      refine Or.inr ⟨by rw [gates]; simp, ?_⟩
      intro other otherHeld
      rw [holder] at otherHeld
      cases otherHeld
      exact (keeps.tasks triageTask).terminal terminal
    · exact Or.inl (by rw [gates, quiet.gates]; simp [same])
  split
  · exact cleared s _ (Quiet.refl s) rfl rfl rfl rfl
  · rename_i auto _
    split
    · exact (Quiet.refl s).settles
    · rename_i paused
      simp only [Bool.or_eq_true, decide_eq_true_eq, not_or, not_not] at paused
      have live : ((s.dropOwnerTask (s.tasks auto).workerId auto).tasks auto).terminal = false := by
        rw [dropOwnerTask_tasks]
        exact TaskHash.terminal_of_status paused.1
      have restarted :=
        (Quiet.dropOwnerTask s (s.tasks auto).workerId auto).trans
          (restartAuto_quiet _ auto lease.workerId lease.fencingToken now live)
      exact cleared _ _ restarted rfl rfl rfl rfl

theorem autoStep_settles (op : AutoOp) : Settles s (s.autoStep op) := by
  cases op with
  | record task cursor lease now =>
      exact (recordAutoCommandCompleted_quiet s task cursor lease now).settles
  | pause task triageTask cursor lease now =>
      exact (pauseAutoForTriage_quiet s task triageTask cursor lease now).settles
  | resume triageTask lease now =>
      exact resumeAutoAfterTriage_settles s triageTask lease now

/-! ## Pipeline waits -/

theorem registerPipelineWait_quiet (task : TaskId) (args : WaitArgs) (now : Time) :
    Quiet s (s.registerPipelineWait task args now).1 := by
  unfold registerPipelineWait
  split
  · exact Quiet.refl s
  · exact Quiet.of_task rfl rfl rfl rfl (TaskKept.of_same_status rfl rfl rfl)

theorem queueResume_quiet (task : TaskId) (worker : WorkerId) (event : PipelineEvent) :
    Quiet s (s.queueResume task worker event) :=
  Quiet.of_task rfl rfl rfl rfl (TaskKept.of_same_status rfl rfl rfl)

theorem publishTo_quiet (event : PipelineEvent) (task : TaskId) :
    Quiet s (publishTo event s task) := by
  unfold publishTo
  dsimp only
  split
  · exact Quiet.refl s
  · split
    · exact queueResume_quiet s task _ event
    · exact Quiet.refl s

theorem publishLoop_quiet (event : PipelineEvent) (tasks : List TaskId) :
    Quiet s (tasks.foldl (publishTo event) s) := by
  induction tasks generalizing s with
  | nil =>
      exact Quiet.refl s
  | cons task rest ih =>
      exact (publishTo_quiet s event task).trans (ih (publishTo event s task))

theorem publishPipelineEvent_quiet (event : PipelineEvent) :
    Quiet s (s.publishPipelineEvent event) := by
  have cached : Quiet s ((s.setEvent event.shaKey event).setEvent event.pipelineKey event) :=
    Quiet.of_frame rfl rfl rfl rfl
  unfold publishPipelineEvent
  dsimp only
  split
  · exact cached
  · exact cached.trans (publishLoop_quiet _ event _)

theorem resumePipelineIfCached_quiet (task : TaskId) :
    Quiet s (s.resumePipelineIfCached task).1 := by
  unfold resumePipelineIfCached
  dsimp only
  repeat' split
  all_goals first
    | exact Quiet.refl s
    | exact queueResume_quiet s task _ _

theorem claimPipelineResume_quiet
    (task : TaskId) (event : PipelineEvent) (lease : Option MrLease) (now : Time) :
    Quiet s (s.claimPipelineResume task event lease now).1 := by
  unfold claimPipelineResume
  dsimp only
  split
  · split
    · exact Quiet.refl s
    · exact Quiet.refl s
  rename_i waiting
  split
  · exact Quiet.refl s
  split
  · exact Quiet.refl s
  split
  · exact Quiet.refl s
  · dsimp only
    refine Quiet.updTask ((Quiet.dropWaiter s task).trans (Quiet.of_frame rfl rfl rfl rfl)) ?_
    refine TaskKept.of_live rfl rfl rfl ?_
    rw [setPipelineWaiting_tasks, dropWaiter_tasks]
    exact TaskHash.terminal_of_status (not_not.mp waiting)

theorem completePipelineResume_quiet (task : TaskId) (event : PipelineEvent) :
    Quiet s (s.completePipelineResume task event).1 := by
  unfold completePipelineResume
  dsimp only
  split
  · exact Quiet.refl s
  split
  · exact Quiet.refl s
  · dsimp only
    refine Quiet.updTask ((Quiet.dropWaiter s task).trans (Quiet.of_frame rfl rfl rfl rfl)) ?_
    exact TaskKept.of_same_status rfl rfl rfl

theorem pipelineStep_quiet (op : PipelineOp) : Quiet s (s.pipelineStep op) := by
  cases op with
  | register task args now =>
      exact registerPipelineWait_quiet s task args now
  | publish event =>
      exact publishPipelineEvent_quiet s event
  | resumeCached task =>
      exact resumePipelineIfCached_quiet s task
  | claim task event lease now =>
      exact claimPipelineResume_quiet s task event lease now
  | complete task event =>
      exact completePipelineResume_quiet s task event
  | dropStale task =>
      dsimp only [pipelineStep, dropStaleWait]
      split
      · exact Quiet.of_frame rfl rfl rfl rfl
      · exact Quiet.refl s
  | deferFallback task now =>
      exact Quiet.of_frame rfl rfl rfl rfl

/-! ## Cards -/

theorem cardStep_quiet (op : CardOp) : Quiet s (s.cardStep op) := by
  cases op with
  | save mr cardId pipelineId card =>
      dsimp only [cardStep, saveTriageCard]
      repeat' split
      all_goals exact Quiet.of_frame rfl rfl rfl rfl
  | recordMessage cardId messageId receiveId now =>
      dsimp only [cardStep, recordCardMessage]
      repeat' split
      all_goals exact Quiet.of_frame rfl rfl rfl rfl
  | transition cardId expected target statusMarkdown now =>
      dsimp only [cardStep, transitionTriageCard]
      repeat' split
      all_goals exact Quiet.of_frame rfl rfl rfl rfl
  | transitionNotify task cardId expected target statusMarkdown notification now =>
      dsimp only [cardStep, transitionTriageCardWithNotification]
      repeat' split
      all_goals exact Quiet.of_frame rfl rfl rfl rfl
  | progress task cardId args notification now =>
      dsimp only [cardStep, updateRepairProgressWithNotification]
      split
      · exact Quiet.refl s
      split
      all_goals exact Quiet.of_frame rfl rfl rfl rfl
  | reconcile task cardId expectedRevision args notification now =>
      dsimp only [cardStep, reconcileRepairCardWithNotification]
      repeat' split
      all_goals exact Quiet.of_frame rfl rfl rfl rfl
  | correctLate task cardId args notification now =>
      dsimp only [cardStep, correctLateRepairTerminal]
      split
      · exact Quiet.refl s
      split
      · exact Quiet.refl s
      · exact Quiet.of_task rfl rfl rfl rfl (TaskKept.of_same_status rfl rfl rfl)
  | updateUt task cardId state terminal notification now =>
      dsimp only [cardStep, updatePostRepairUtWithNotification]
      repeat' split
      all_goals exact Quiet.of_frame rfl rfl rfl rfl
  | publishEligibility task cardId commitCount revision now =>
      exact Quiet.of_frame rfl rfl rfl rfl
  | notify notification =>
      dsimp only [cardStep, enqueueNotification]
      repeat' split
      all_goals exact Quiet.of_frame rfl rfl rfl rfl
  | fallback cardId notification now =>
      dsimp only [cardStep, enqueueCardFallback]
      repeat' split
      all_goals exact Quiet.of_frame rfl rfl rfl rfl

/-! ## Expiry -/

theorem expiryStep_quiet (op : ExpiryOp) : Quiet s (s.expiryStep op) := by
  cases op <;> exact Quiet.of_frame rfl rfl rfl rfl

end Broker

end MrAgent
