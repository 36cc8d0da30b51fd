import MrAgent.PipelineWait

namespace MrAgent

open TransitionSystem

/-!
# Suspension and resumption in the executor

The executor runs a task, registers a wait, suspends it and resumes it from a
message. A resumed `/repair-pipeline` task first inspects the whole pipeline
group and may suspend again. Each step here makes at most one broker call, so
webhooks, other tasks and the recovery of dead workers come in between.
-/

/-- `wait_kind` of a `TaskSuspended` that waits for a pipeline. -/
inductive PipelineWaitKind where
  | pipeline
  | pipelineGroup
deriving DecidableEq

def PipelineWaitKind.text : PipelineWaitKind → String
  | pipeline => "pipeline"
  | pipelineGroup => "pipeline_group"

/-- The fields of `PipelineCompletionSnapshot` that decide about the wait. -/
structure CompletionSnapshot where
  terminal : Bool
  validationPipelineId : Nat
  digest : String
deriving DecidableEq

/-- What the two inspections of a pipeline group amount to. -/
inductive GroupVerdict where
  | unknown
  | complete
  | incomplete (snapshot : CompletionSnapshot)
  | error
deriving DecidableEq

/--
The inspections of `_wait_for_complete_pipeline_group`; `none` is one that
raised. A second one, whose failure is not caught, confirms a terminal first.
-/
def inspectGroup (first second : Option CompletionSnapshot) : GroupVerdict :=
  match first with
  | none => .unknown
  | some first =>
    if first.terminal then
      match second with
      | none => .error
      | some second =>
        if second.terminal && second.digest == first.digest then .complete
        else .incomplete second
    else .incomplete first

/-- What the executor is doing with a task. -/
inductive Phase where
  | idle
  | body
  | inspecting (event : PipelineEvent)
  | suspending (kind : PipelineWaitKind)
  | failing
deriving DecidableEq

/-- How a body goes on after a registration. -/
structure AfterRegister where
  /-- It raises `TaskSuspended` when nothing was cached; a re-run graph node need not. -/
  suspends : Bool := true
  /-- It inspects the pipeline group of a cached event. -/
  inspects : Bool := false
deriving DecidableEq

/-- Steps of the executor and of the broker calls around it. -/
inductive ExecOp where
  | start (task : TaskId) (lease : Option MrLease) (now : Time)
  | resume (task : TaskId) (event : PipelineEvent) (lease : Option MrLease) (now : Time)
  | register (task : TaskId) (args : WaitArgs) (next : AfterRegister) (now : Time)
  | inspect (task : TaskId) (first second : Option CompletionSnapshot) (now : Time)
  | suspend (task : TaskId) (lease : Option MrLease) (identity : String) (now : Time)
  | transition (task : TaskId) (call : TransitionCall) (lease : Option MrLease)
      (fields : TransitionFields) (now : Time)
  | abort (task : TaskId)
  | publish (event : PipelineEvent)
  | resumeCached (task : TaskId)
  | deferFallback (task : TaskId) (now : Time)
  | lease (op : LeaseOp)
  | assign (task : TaskId) (lease : Option MrLease) (worker : WorkerId) (now : Time)
  | recoverDead (worker : WorkerId) (task : TaskId) (retryLimit : Nat) (now : Time)
  | transfer (task : TaskId) (oldWorker : WorkerId) (lease : MrLease)
      (event : Option PipelineEvent) (now : Time)

/-- `_is_pipeline_repair`, for the task kinds whose resume reaches it. -/
def TaskHash.resumesGroup (task : TaskHash) : Bool :=
  match task.payload with
  | none => false
  | some envelope =>
    let word := (strip envelope.command.toList).takeWhile fun c => !isSpace c
    envelope.kind ≠ .repairRollback && envelope.kind ≠ .repairReport &&
      word.map Char.toLower == "/repair-pipeline".toList

/-- A status change that ends the execution of a task. -/
def TransitionCall.ends : TransitionCall → Bool
  | start | publish | recordResult | recordRepairState => false
  | _ => true

/-- The broker and what the executors do. -/
structure Execution where
  broker : Broker
  phase : TaskId → Phase

namespace Execution

variable (x : Execution)

def setPhase (task : TaskId) (phase : Phase) : Execution :=
  { x with phase := Function.update x.phase task phase }

def withBroker (broker : Broker) : Execution :=
  { x with broker := broker }

/-- `execute`: from `assigned` to `running`. -/
def start (task : TaskId) (lease : Option MrLease) (now : Time) : Execution :=
  let (s, reply) := x.broker.transitionTask task [.assigned] .running lease {} now
  if reply = 1 then (x.withBroker s).setPhase task .body else x.withBroker s

/-- `resume_pipeline`: the claim decides whether the body runs again. -/
def resume
    (task : TaskId) (event : PipelineEvent) (lease : Option MrLease) (now : Time) : Execution :=
  let (s, claim) := x.broker.claimPipelineResume task event lease now
  if claim = .claimed then
    (x.withBroker s).setPhase task
      (if (x.broker.tasks task).resumesGroup then .inspecting event else .body)
  else x.withBroker s

/-- A body registers a wait: the tools, the format fix and the coverage rounds. -/
def register (task : TaskId) (args : WaitArgs) (next : AfterRegister) (now : Time) : Execution :=
  match x.phase task with
  | .body =>
    match x.broker.registerPipelineWait task args now with
    | (s, some cached) =>
      if cached.terminal then
        (x.withBroker s).setPhase task (if next.inspects then .inspecting cached else .body)
      else (x.withBroker s).setPhase task (.suspending .pipeline)
    | (s, none) =>
      (x.withBroker s).setPhase task (if next.suspends then .suspending .pipeline else .body)
  | _ => x

/-- The registration of `_wait_for_complete_pipeline_group` for the validation pipeline. -/
def groupWait (event : PipelineEvent) (snapshot : CompletionSnapshot) : WaitArgs where
  projectId := event.projectId
  sha := event.sha
  attemptId :=
    "pipeline-group:" ++ toString snapshot.validationPipelineId ++ ":" ++ snapshot.digest
  pipelineId := some snapshot.validationPipelineId

/-- `_wait_for_complete_pipeline_group`. -/
def inspect (task : TaskId) (first second : Option CompletionSnapshot) (now : Time) : Execution :=
  match x.phase task with
  | .inspecting event =>
    match inspectGroup first second with
    | .unknown => x.setPhase task (.suspending .pipelineGroup)
    | .complete => x.setPhase task .body
    | .error => x.setPhase task .failing
    | .incomplete snapshot =>
      if snapshot.validationPipelineId ≠ 0 && snapshot.validationPipelineId ≠ event.pipelineId then
        match x.broker.registerPipelineWait task (groupWait event snapshot) now with
        | (s, some cached) =>
          if cached.terminal then (x.withBroker s).setPhase task (.inspecting cached)
          else (x.withBroker s).setPhase task (.suspending .pipelineGroup)
        | (s, none) => (x.withBroker s).setPhase task (.suspending .pipelineGroup)
      else x.setPhase task (.suspending .pipelineGroup)
  | _ => x

/--
The `TaskSuspended` branch of `_execute`. Its cached check, which a group wait
skips, is the step `resumeCached`, at any later moment.
-/
def suspend (task : TaskId) (lease : Option MrLease) (identity : String) (now : Time) :
    Execution :=
  match x.phase task with
  | .suspending kind =>
    let fields : TransitionFields :=
      { waitKind := some kind.text, waitIdentity := some identity }
    let (s, _) := x.broker.transitionTask task [.running] .waitingPipeline lease fields now
    (x.withBroker s).setPhase task .idle
  | _ => x

/-- Any other status change of the executor. -/
def transition (task : TaskId) (call : TransitionCall) (lease : Option MrLease)
    (fields : TransitionFields) (now : Time) : Execution :=
  match call with
  | .start | .suspend => x
  | call =>
    let (s, _) := x.broker.transitionTask task call.expected call.target lease fields now
    if call.ends then (x.withBroker s).setPhase task .idle else x.withBroker s

def step (x : Execution) : ExecOp → Execution
  | .start task lease now => x.start task lease now
  | .resume task event lease now => x.resume task event lease now
  | .register task args next now => x.register task args next now
  | .inspect task first second now => x.inspect task first second now
  | .suspend task lease identity now => x.suspend task lease identity now
  | .transition task call lease fields now => x.transition task call lease fields now
  | .abort task => x.setPhase task .idle
  | .publish event => x.withBroker (x.broker.publishPipelineEvent event)
  | .resumeCached task => x.withBroker (x.broker.resumePipelineIfCached task).1
  | .deferFallback task now => x.withBroker (x.broker.deferPipelineFallback task now)
  | .lease op => x.withBroker (x.broker.leaseStep op)
  | .assign task lease worker now => x.withBroker (x.broker.assignToWorker task lease worker now).1
  | .recoverDead worker task retryLimit now =>
    x.withBroker (x.broker.recoverDeadTask worker task retryLimit now).1
  | .transfer task oldWorker lease event now =>
    x.withBroker (x.broker.transferOrphanedTask task oldWorker lease event now).1

end Execution

/-! ## Live registrations -/

/-- The registration of a task is complete: keys, waiter set and index. -/
structure LiveWait (task : TaskId) (s : Broker) : Prop where
  eventKey : (s.tasks task).pipeline.eventKey.isSome = true
  member : ∃ key, (s.tasks task).pipeline.waiterKey = some key ∧ task ∈ s.waiters key
  index : (s.pipelineWaiting task).isSome = true

/-- Some inbox holds a resume message whose claim succeeds. -/
def HasResume (task : TaskId) (s : Broker) : Prop :=
  ∃ worker event lease, event ∈ s.resumeMessages worker task ∧
    ∀ now, (s.claimPipelineResume task event lease now).2 = .claimed

/-- Something can still wake the task. -/
def Wakeable (task : TaskId) (s : Broker) : Prop :=
  LiveWait task s ∨ HasResume task s

namespace LiveWait

variable {task : TaskId} {s after : Broker}

theorem of_kept
    (live : LiveWait task s)
    (eventKey : (after.tasks task).pipeline.eventKey = (s.tasks task).pipeline.eventKey)
    (waiterKey : (after.tasks task).pipeline.waiterKey = (s.tasks task).pipeline.waiterKey)
    (waiters : ∀ key, task ∈ s.waiters key → task ∈ after.waiters key)
    (index : (s.pipelineWaiting task).isSome = true →
      (after.pipelineWaiting task).isSome = true) :
    LiveWait task after := by
  obtain ⟨key, registered, member⟩ := live.member
  refine ⟨by rw [eventKey]; exact live.eventKey, ⟨key, ?_, waiters key member⟩, index live.index⟩
  rw [waiterKey]
  exact registered

theorem of_sameWaits
    (live : LiveWait task s)
    (same : Broker.SameWaits s after) :
    LiveWait task after := by
  refine live.of_kept (by rw [same.pipeline]) (by rw [same.pipeline]) ?_ ?_
  · intro key member
    rwa [same.waiters]
  · intro indexed
    rwa [same.index]

theorem publish
    (live : LiveWait task s)
    (event : PipelineEvent) :
    LiveWait task (s.publishPipelineEvent event) := by
  have keys := s.publishPipelineEvent_keys event
  have kept : ((s.publishPipelineEvent event).tasks task).pipeline.eventKey =
        (s.tasks task).pipeline.eventKey ∧
      ((s.publishPipelineEvent event).tasks task).pipeline.waiterKey =
        (s.tasks task).pipeline.waiterKey := by
    rcases s.publishPipelineEvent_hash event task with same | ⟨_, _, _, queued⟩
    · rw [same]
      exact ⟨rfl, rfl⟩
    · rw [queued]
      exact ⟨rfl, rfl⟩
  refine live.of_kept kept.1 kept.2 ?_ ?_
  · intro key member
    rwa [keys.waiters]
  · intro indexed
    rwa [keys.index]

theorem resumeCached
    (live : LiveWait task s)
    (other : TaskId) :
    LiveWait task (s.resumePipelineIfCached other).1 := by
  rcases s.resumePipelineIfCached_cases other with idle | ⟨_, _, event, _, _, _, _, _, _, queues⟩
  · rw [idle]
    exact live
  · rw [queues]
    by_cases same : task = other
    · subst other
      exact live.of_kept (by simp [TaskHash.resumeQueued]) (by simp [TaskHash.resumeQueued])
        (fun _ => id) id
    · exact live.of_kept (by simp [same]) (by simp [same]) (fun _ => id) id

theorem registered (task : TaskId) (args : WaitArgs) (now : Time) (s : Broker) :
    LiveWait task (s.registered task args now) := by
  have pipeline := s.registered_pipeline task args now
  refine ⟨?_, ⟨args.key, ?_, ?_⟩, ?_⟩
  · rw [pipeline]
    rfl
  · rw [pipeline]
    rfl
  · rw [Broker.mem_registered]
    exact Or.inr ⟨rfl, rfl⟩
  · simp [Broker.registered]

theorem register
    (live : LiveWait task s)
    (other : TaskId) (args : WaitArgs) (now : Time) :
    LiveWait task (s.registered other args now) := by
  by_cases same : task = other
  · subst other
    exact LiveWait.registered task args now s
  · have hash := s.registered_of_ne other args now same
    refine live.of_kept (by rw [hash]) (by rw [hash]) ?_ ?_
    · intro key member
      rw [Broker.mem_registered]
      exact Or.inl member
    · simp [Broker.registered, same]

theorem claim_other
    {other : TaskId}
    (live : LiveWait task s)
    (different : task ≠ other)
    (event : PipelineEvent) (lease : Option MrLease) (now : Time) :
    LiveWait task (s.claimPipelineResume other event lease now).1 := by
  rcases s.claimPipelineResume_cases other event lease now with
    ⟨reply, _, refused⟩ | ⟨_, _, _, _, _, accepted⟩
  · rw [refused]
    exact live
  · rw [accepted]
    refine live.of_kept (by simp [different]) (by simp [different]) ?_ ?_
    · intro key member
      simp only [Broker.updTask_waiters, Broker.setPipelineWaiting_waiters]
      rw [Broker.mem_dropWaiter]
      exact ⟨member, fun same => different same.1⟩
    · simp [different]

end LiveWait

/--
Waiting tasks have a live registration, and so has a task that is about to
wait; an executing task does not wait.
-/
structure ExecutionInv (x : Execution) : Prop where
  waiting : ∀ task, (x.broker.tasks task).status = some .waitingPipeline →
    LiveWait task x.broker
  suspending : ∀ task kind, x.phase task = .suspending kind → LiveWait task x.broker
  executing : ∀ task, x.phase task ≠ .idle →
    (x.broker.tasks task).status ≠ some .waitingPipeline

/--
Every inspection that leaves the pipeline group unfinished succeeds and finds a
validation pipeline other than the one of the event.
-/
def FindsValidation (x : Execution) : ExecOp → Prop
  | .inspect task first second _ =>
    ∀ event, x.phase task = .inspecting event →
      match inspectGroup first second with
      | .unknown => False
      | .incomplete snapshot =>
        snapshot.validationPipelineId ≠ 0 ∧ snapshot.validationPipelineId ≠ event.pipelineId
      | _ => True
  | _ => True

namespace ExecutionInv

variable {x : Execution}

theorem withBroker
    {after : Broker}
    (inv : ExecutionInv x)
    (live : ∀ task, LiveWait task x.broker → LiveWait task after)
    (noNew : Broker.NoNewWait x.broker after) :
    ExecutionInv (x.withBroker after) := by
  refine ⟨?_, ?_, ?_⟩
  · intro task waiting
    exact live task (inv.waiting task (noNew task waiting))
  · intro task kind suspending
    exact live task (inv.suspending task kind suspending)
  · intro task executing waiting
    exact inv.executing task executing (noNew task waiting)

variable {task : TaskId}

theorem setPhase
    {phase : Phase}
    (inv : ExecutionInv x)
    (suspending : ∀ kind, phase = .suspending kind → LiveWait task x.broker)
    (executing : phase ≠ .idle → (x.broker.tasks task).status ≠ some .waitingPipeline) :
    ExecutionInv (x.setPhase task phase) := by
  refine ⟨inv.waiting, ?_, ?_⟩
  · intro other kind held
    by_cases same : other = task
    · subst other
      exact suspending kind (by simpa [Execution.setPhase] using held)
    · exact inv.suspending other kind (by simpa [Execution.setPhase, same] using held)
  · intro other active
    by_cases same : other = task
    · subst other
      exact executing (by simpa [Execution.setPhase] using active)
    · exact inv.executing other (by simpa [Execution.setPhase, same] using active)

theorem transitionTask
    (inv : ExecutionInv x)
    (task : TaskId) (expected : List TaskStatus) (target : TaskStatus) (lease : Option MrLease)
    (fields : TransitionFields) (now : Time)
    (different : target ≠ .waitingPipeline) :
    ExecutionInv
      (x.withBroker (x.broker.transitionTask task expected target lease fields now).1) :=
  inv.withBroker
    (fun _ live => live.of_sameWaits
      (x.broker.transitionTask_sameWaits task expected target lease fields now))
    (x.broker.transitionTask_noNewWait task expected target lease fields now different)

theorem start
    (inv : ExecutionInv x)
    (task : TaskId) (lease : Option MrLease) (now : Time) :
    ExecutionInv (x.start task lease now) := by
  have changed := inv.transitionTask task [.assigned] .running lease {} now nofun
  dsimp only [Execution.start]
  split
  · rename_i made
    refine changed.setPhase nofun ?_
    intro _
    rcases x.broker.transitionTask_cases task [.assigned] .running lease {} now with
      ⟨reply, refused, replied⟩ | ⟨_, _, activeRepairs, result⟩
    · rw [replied] at made
      exact absurd made refused
    · simp [Execution.withBroker, result, Broker.transitioned, TransitionFields.write]
  · exact changed

theorem resume
    (inv : ExecutionInv x)
    (task : TaskId) (event : PipelineEvent) (lease : Option MrLease) (now : Time) :
    ExecutionInv (x.resume task event lease now) := by
  dsimp only [Execution.resume]
  have others : ∀ other, other ≠ task → LiveWait other x.broker →
      LiveWait other (x.broker.claimPipelineResume task event lease now).1 :=
    fun other different live => live.claim_other different event lease now
  rcases x.broker.claimPipelineResume_cases task event lease now with
    ⟨reply, refused, replied⟩ | ⟨_, _, _, _, _, accepted⟩
  · rw [replied]
    dsimp only
    rw [if_neg refused]
    exact inv
  · rw [accepted] at others ⊢
    dsimp only at others ⊢
    rw [if_pos rfl]
    generalize next_eq : (if (x.broker.tasks task).resumesGroup then Phase.inspecting event
      else Phase.body) = next
    have unsuspended : ∀ kind, next ≠ .suspending kind := by
      intro kind
      rw [← next_eq]
      split <;> nofun
    refine ⟨?_, ?_, ?_⟩
    · intro other waiting
      by_cases same : other = task
      · subst other
        simp [Execution.withBroker, Execution.setPhase, Broker.claimedResume] at waiting
      · refine others other same (inv.waiting other ?_)
        simpa [Execution.withBroker, Execution.setPhase, same] using waiting
    · intro other kind held
      by_cases same : other = task
      · subst other
        exact absurd (by simpa [Execution.setPhase] using held) (unsuspended kind)
      · refine others other same (inv.suspending other kind ?_)
        simpa [Execution.withBroker, Execution.setPhase, same] using held
    · intro other active
      by_cases same : other = task
      · subst other
        simp [Execution.withBroker, Execution.setPhase, Broker.claimedResume]
      · have before := inv.executing other
          (by simpa [Execution.withBroker, Execution.setPhase, same] using active)
        simpa [Execution.withBroker, Execution.setPhase, same] using before

theorem registered
    (inv : ExecutionInv x)
    (task : TaskId) (args : WaitArgs) (now : Time)
    (active : x.phase task ≠ .idle)
    (next : Phase) :
    ExecutionInv ((x.withBroker (x.broker.registered task args now)).setPhase task next) := by
  have noNew : Broker.NoNewWait x.broker (x.broker.registered task args now) :=
    Broker.NoNewWait.of_task rfl id
  refine (inv.withBroker (fun _ live => live.register task args now) noNew).setPhase ?_ ?_
  · intro _ _
    exact LiveWait.registered task args now x.broker
  · intro _ waiting
    exact inv.executing task active (noNew task waiting)

theorem unregistered
    {next : Phase}
    (inv : ExecutionInv x)
    (active : x.phase task ≠ .idle)
    (unsuspended : ∀ kind, next ≠ .suspending kind) :
    ExecutionInv (x.setPhase task next) := by
  refine inv.setPhase ?_ ?_
  · intro kind same
    exact absurd same (unsuspended kind)
  · intro _
    exact inv.executing task active

theorem register
    (inv : ExecutionInv x)
    (task : TaskId) (args : WaitArgs) (next : AfterRegister) (now : Time) :
    ExecutionInv (x.register task args next now) := by
  unfold Execution.register
  split
  · rename_i body
    have active : x.phase task ≠ .idle := by
      rw [body]
      nofun
    rcases x.broker.registerPipelineWait_cases task args now with
      ⟨event, lua, cached⟩ | ⟨_, registered⟩
    · rw [cached]
      dsimp only
      rw [if_pos (PipelineEvent.terminal_of_luaTerminal lua)]
      refine inv.unregistered active ?_
      intro kind
      split <;> nofun
    · rw [registered]
      exact inv.registered task args now active _
  · exact inv

theorem inspect
    (inv : ExecutionInv x)
    (task : TaskId) (first second : Option CompletionSnapshot) (now : Time)
    (finds : FindsValidation x (.inspect task first second now)) :
    ExecutionInv (x.inspect task first second now) := by
  unfold Execution.inspect
  split
  · rename_i event inspecting
    have active : x.phase task ≠ .idle := by
      rw [inspecting]
      nofun
    have found := finds event inspecting
    split
    · rename_i verdict
      rw [verdict] at found
      exact found.elim
    · exact inv.unregistered active nofun
    · exact inv.unregistered active nofun
    · rename_i snapshot verdict
      rw [verdict] at found
      have names : (snapshot.validationPipelineId ≠ 0 &&
          snapshot.validationPipelineId ≠ event.pipelineId) = true := by
        simp [found.1, found.2]
      rw [if_pos names]
      rcases x.broker.registerPipelineWait_cases task (Execution.groupWait event snapshot) now with
        ⟨cached, lua, reply⟩ | ⟨_, registered⟩
      · rw [reply]
        dsimp only
        rw [if_pos (PipelineEvent.terminal_of_luaTerminal lua)]
        exact inv.unregistered active nofun
      · rw [registered]
        exact inv.registered task _ now active _
  · exact inv

theorem suspend
    (inv : ExecutionInv x)
    (task : TaskId) (lease : Option MrLease) (identity : String) (now : Time) :
    ExecutionInv (x.suspend task lease identity now) := by
  unfold Execution.suspend
  split
  · rename_i kind suspending
    generalize fields_eq : ({ waitKind := some kind.text, waitIdentity := some identity } :
      TransitionFields) = fields
    dsimp only
    have same := x.broker.transitionTask_sameWaits task [.running] .waitingPipeline lease fields now
    have hash : ∀ other, other ≠ task →
        (x.broker.transitionTask task [.running] .waitingPipeline lease fields now).1.tasks other =
          x.broker.tasks other := by
      intro other different
      rcases x.broker.transitionTask_cases task [.running] .waitingPipeline lease fields now with
        ⟨reply, _, refused⟩ | ⟨_, _, activeRepairs, made⟩
      · rw [refused]
      · rw [made]
        simp [different]
    refine ⟨?_, ?_, ?_⟩
    · intro other waiting
      by_cases own : other = task
      · subst other
        exact (inv.suspending task kind suspending).of_sameWaits same
      · refine (inv.waiting other ?_).of_sameWaits same
        rw [← hash other own]
        exact waiting
    · intro other otherKind held
      by_cases own : other = task
      · subst other
        simp [Execution.setPhase] at held
      · refine (inv.suspending other otherKind ?_).of_sameWaits same
        simpa [Execution.setPhase, Execution.withBroker, own] using held
    · intro other active
      by_cases own : other = task
      · subst other
        simp [Execution.setPhase] at active
      · have before := inv.executing other
          (by simpa [Execution.setPhase, Execution.withBroker, own] using active)
        simpa [Execution.setPhase, Execution.withBroker, hash other own] using before
  · exact inv

theorem transition
    (inv : ExecutionInv x)
    (task : TaskId) (call : TransitionCall) (lease : Option MrLease) (fields : TransitionFields)
    (now : Time) :
    ExecutionInv (x.transition task call lease fields now) := by
  have changed (different : call.target ≠ .waitingPipeline) :
      ExecutionInv (if call.ends then
        (x.withBroker (x.broker.transitionTask task call.expected call.target lease fields
          now).1).setPhase task .idle
        else x.withBroker (x.broker.transitionTask task call.expected call.target lease fields
          now).1) := by
    have made := inv.transitionTask task call.expected call.target lease fields now different
    split
    · exact made.setPhase nofun (fun idle => absurd rfl idle)
    · exact made
  cases call with
  | start | suspend =>
      exact inv
  | publish | recordResult | complete | pause | fail | recordRepairState | markFailed
    | failDelivery =>
      exact changed (by decide)
  | finishUnitTests target final | cancelUnitTests target final =>
      refine changed ?_
      rcases final with failed | canceled
      · rw [TransitionCall.target, failed]
        decide
      · rw [TransitionCall.target, canceled]
        decide

theorem step
    (x : Execution)
    (op : ExecOp)
    (inv : ExecutionInv x)
    (finds : FindsValidation x op) :
    ExecutionInv (x.step op) := by
  cases op with
  | start task lease now =>
      exact inv.start task lease now
  | resume task event lease now =>
      exact inv.resume task event lease now
  | register task args next now =>
      exact inv.register task args next now
  | inspect task first second now =>
      exact inv.inspect task first second now finds
  | suspend task lease identity now =>
      exact inv.suspend task lease identity now
  | transition task call lease fields now =>
      exact inv.transition task call lease fields now
  | abort task =>
      exact inv.setPhase nofun (fun idle => absurd rfl idle)
  | publish event =>
      refine inv.withBroker (fun _ live => live.publish event) ?_
      intro task waiting
      rcases x.broker.publishPipelineEvent_hash event task with same | ⟨_, _, _, queued⟩
      · rwa [same] at waiting
      · rwa [queued] at waiting
  | resumeCached task =>
      refine inv.withBroker (fun _ live => live.resumeCached task) ?_
      rcases x.broker.resumePipelineIfCached_cases task with
        idle | ⟨_, _, event, _, _, _, _, _, _, queues⟩
      · rw [idle]
        exact fun _ => id
      · rw [queues]
        exact Broker.NoNewWait.of_task (x.broker.queueResume_tasks task _ event) id
  | deferFallback task now =>
      refine inv.withBroker ?_ fun _ => id
      intro other live
      refine live.of_kept rfl rfl (fun _ => id) ?_
      by_cases same : other = task
      · subst other
        simp [Broker.deferPipelineFallback]
      · simp [Broker.deferPipelineFallback, same]
  | lease op =>
      obtain ⟨same, tasks⟩ := x.broker.leaseStep_sameWaits op
      refine inv.withBroker (fun _ live => live.of_sameWaits same) ?_
      intro task waiting
      rwa [tasks] at waiting
  | assign task lease worker now =>
      obtain ⟨same, noNew⟩ := x.broker.assignToWorker_sameWaits task lease worker now
      exact inv.withBroker (fun _ live => live.of_sameWaits same) noNew
  | recoverDead worker task retryLimit now =>
      obtain ⟨same, noNew⟩ := x.broker.recoverDeadTask_sameWaits worker task retryLimit now
      exact inv.withBroker (fun _ live => live.of_sameWaits same) noNew
  | transfer task oldWorker lease event now =>
      obtain ⟨same, noNew⟩ :=
        x.broker.transferOrphanedTask_sameWaits task oldWorker lease event now
      exact inv.withBroker (fun _ live => live.of_sameWaits same) noNew

end ExecutionInv

/--
In every run in which each unfinished pipeline group names another validation
pipeline, a waiting task can always be woken.
-/
theorem suspended_task_wakeable
    {start : Broker}
    {x : Execution}
    (registered : ∀ task, (start.tasks task).status = some .waitingPipeline →
      LiveWait task start)
    (run : Reaches Execution.step FindsValidation ⟨start, fun _ => .idle⟩ x)
    (task : TaskId)
    (waiting : (x.broker.tasks task).status = some .waitingPipeline) :
    Wakeable task x.broker := by
  have initial : ExecutionInv ⟨start, fun _ => .idle⟩ :=
    ⟨registered, nofun, fun _ active => absurd rfl active⟩
  have inv := run.invariant ExecutionInv ExecutionInv.step initial
  exact Or.inl (inv.waiting task waiting)

namespace Sample

/-- The sample task is assigned to worker A. -/
def assigned : Broker :=
  startOps.dropLast.foldl Broker.step Broker.empty

/-- The sample task waits for its SHA and pipeline 7 resumes it. -/
def resumeOps : List ExecOp :=
  [.start task (some leaseA) 3,
    .register task ⟨"group/project", "abc", "attempt", none⟩ {} 4,
    .suspend task (some leaseA) "group/project:abc" 5,
    .publish (success 7 "t"),
    .resume task (success 7 "t") (some leaseA) 6]

/-- The sample task is about to inspect the group of pipeline 7. -/
def beforeInspect : Execution :=
  resumeOps.foldl Execution.step ⟨assigned, fun _ => .idle⟩

/-- The group is inspected and the task suspends again. -/
def afterInspect (first : Option CompletionSnapshot) : Execution :=
  (beforeInspect.step (.inspect task first none 7)).step
    (.suspend task (some leaseA) "group/project:abc:7" 8)

end Sample

open Sample in
theorem assigned_registered
    (other : TaskId)
    (waiting : (assigned.tasks other).status = some .waitingPipeline) :
    LiveWait other assigned := by
  by_cases same : other = task
  · subst other
    exact absurd waiting (by decide +kernel)
  · have unknown : assigned.tasks other = {} := by
      -- The assignment and the two writes of the admission, in reverse.
      change (Function.update _ task _ : TaskId → TaskHash) other = {}
      rw [Function.update_of_ne same]
      change (Function.update _ task _ : TaskId → TaskHash) other = {}
      rw [Function.update_of_ne same]
      change (Function.update _ task _ : TaskId → TaskHash) other = {}
      rw [Function.update_of_ne same]
      rfl
    rw [unknown] at waiting
    cases waiting

open Sample in
theorem beforeInspect_run :
    Reaches Execution.step FindsValidation ⟨assigned, fun _ => .idle⟩ beforeInspect := by
  have start : Reaches Execution.step FindsValidation ⟨assigned, fun _ => .idle⟩
      ⟨assigned, fun _ => .idle⟩ :=
    Reaches.refl _
  have running := start.snoc (.start task (some leaseA) 3) trivial
  have registered := running.snoc
    (.register task ⟨"group/project", "abc", "attempt", none⟩ {} 4) trivial
  have suspended := registered.snoc (.suspend task (some leaseA) "group/project:abc" 5) trivial
  have ended := suspended.snoc (.publish (success 7 "t")) trivial
  exact ended.snoc (.resume task (success 7 "t") (some leaseA) 6) trivial

open Sample in
theorem running_group_wakeable :
    let x := afterInspect (some ⟨false, 9, "digest"⟩)
    (x.broker.tasks task).status = some .waitingPipeline ∧ Wakeable task x.broker := by
  intro x
  have inspecting : beforeInspect.phase task = .inspecting (success 7 "t") := by decide +kernel
  have inspected := beforeInspect_run.snoc
    (.inspect task (some ⟨false, 9, "digest"⟩) none 7) (by
      intro event same
      rw [inspecting] at same
      cases same
      exact ⟨by decide, by decide⟩)
  have suspended := inspected.snoc (.suspend task (some leaseA) "group/project:abc:7" 8) trivial
  have waiting : (x.broker.tasks task).status = some .waitingPipeline := by decide +kernel
  exact ⟨waiting, suspended_task_wakeable assigned_registered suspended task waiting⟩

open Sample in
/-- A failed inspection suspends the task without a registration. -/
theorem failed_inspection_strands :
    let x := afterInspect none
    (∀ other, (assigned.tasks other).status = some .waitingPipeline → LiveWait other assigned) ∧
      Reaches Execution.step (fun _ _ => True) ⟨assigned, fun _ => .idle⟩ x ∧
      (x.broker.tasks task).status = some .waitingPipeline ∧
      ¬Wakeable task x.broker := by
  intro x
  have run : Reaches Execution.step (fun _ _ => True) ⟨assigned, fun _ => .idle⟩
      beforeInspect :=
    beforeInspect_run.mono fun _ _ _ => trivial
  have inspected := run.snoc (.inspect task none none 7) trivial
  have suspended := inspected.snoc (.suspend task (some leaseA) "group/project:abc:7" 8) trivial
  refine ⟨assigned_registered, suspended, by decide +kernel, ?_⟩
  rintro (live | ⟨worker, event, lease, _, claimed⟩)
  · have absent : (x.broker.tasks task).pipeline.eventKey = none := by decide +kernel
    have present := live.eventKey
    rw [absent] at present
    cases present
  · obtain ⟨_, _, _, _, queued⟩ :=
      (x.broker.claimPipelineResume_claimed_iff task event lease 9).mp (claimed 9)
    have absent : (x.broker.tasks task).pipeline.resumeQueued = none := by decide +kernel
    rw [absent] at queued
    cases queued

end MrAgent
