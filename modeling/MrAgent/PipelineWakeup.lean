import MrAgent.PipelineWait

namespace MrAgent

/-!
# Wake-up of a suspended task

A task suspends in three atomic steps: it registers its wait, becomes
`waiting_pipeline`, and asks whether an event was cached meanwhile. Events of
the awaited pipeline are delivered in between at any moment. The module
computes which event, if any, ends up as the one resume message, and derives
exactly when the task is woken.
-/

/-- The event belongs to the awaited project, SHA and pipeline. -/
structure AwaitedBy (args : WaitArgs) (event : PipelineEvent) : Prop where
  project : event.projectId = args.projectId
  sha : event.sha = args.sha
  pipeline : ∀ pipelineId, args.pipelineId = some pipelineId → event.pipelineId = pipelineId

namespace AwaitedBy

variable {args : WaitArgs} {event : PipelineEvent}

theorem key
    (awaited : AwaitedBy args event) :
    args.key = event.shaKey ∨ args.key = event.pipelineKey := by
  cases pipeline : args.pipelineId with
  | none =>
      exact Or.inl (by simp [WaitArgs.key, PipelineEvent.shaKey, awaited.project, awaited.sha,
        pipeline])
  | some pipelineId =>
      exact Or.inr (by simp [WaitArgs.key, PipelineEvent.pipelineKey, awaited.project,
        awaited.sha, pipeline, awaited.pipeline pipelineId pipeline])

theorem listens
    {s : Broker}
    {task : TaskId}
    (awaited : AwaitedBy args event)
    (member : task ∈ s.waiters args.key) :
    s.listens event task := by
  rcases awaited.key with sha | pipeline
  · exact Or.inl (sha ▸ member)
  · exact Or.inr (pipeline ▸ member)

theorem cached
    (awaited : AwaitedBy args event)
    (s : Broker) :
    (s.publishPipelineEvent event).events args.key = some event := by
  rw [(s.publishPipelineEvent_keys event).events]
  rcases awaited.key with sha | pipeline
  · rw [sha]
    by_cases same : event.shaKey = event.pipelineKey
    · rw [same]
      simp
    · simp [same]
  · rw [pipeline]
    simp

end AwaitedBy

namespace TaskHash

/-- The task after a resume was queued, if one was. -/
def afterResume (task : TaskHash) : Option PipelineEvent → TaskHash
  | some event => task.resumeQueued event
  | none => task

/-- The first event of a sequence of deliveries that queues a resume. -/
def firstResume (task : TaskHash) (events : List PipelineEvent) : Option PipelineEvent :=
  if task.acceptsResume then events.find? PipelineEvent.terminal else none

theorem firstResume_cons (task : TaskHash) (event : PipelineEvent) (rest : List PipelineEvent) :
    task.firstResume (event :: rest) =
      (task.firstResume [event] <|> task.firstResume rest) := by
  unfold firstResume
  cases task.acceptsResume with
  | false =>
      rfl
  | true =>
      cases terminal : event.terminal <;> simp [terminal]

theorem firstResume_resumeQueued
    (task : TaskHash) (event : PipelineEvent) (events : List PipelineEvent) :
    (task.resumeQueued event).firstResume events = none := by
  simp [firstResume, acceptsResume_resumeQueued]

theorem afterResume_firstResume
    (task : TaskHash) (queued : Option PipelineEvent) (events : List PipelineEvent) :
    (task.afterResume queued).afterResume ((task.afterResume queued).firstResume events) =
        task.afterResume (queued <|> task.firstResume events) ∧
      queued.toList ++ ((task.afterResume queued).firstResume events).toList =
        (queued <|> task.firstResume events).toList := by
  cases queued with
  | none =>
      exact ⟨rfl, rfl⟩
  | some event =>
      simp [afterResume, firstResume_resumeQueued]

section AfterResume

variable (task : TaskHash) (queued : Option PipelineEvent)

@[simp]
theorem afterResume_workerId : (task.afterResume queued).workerId = task.workerId := by
  cases queued <;> rfl

@[simp]
theorem afterResume_status : (task.afterResume queued).status = task.status := by
  cases queued <;> rfl

@[simp]
theorem afterResume_fencingToken :
    (task.afterResume queued).fencingToken = task.fencingToken := by
  cases queued <;> rfl

end AfterResume

end TaskHash

namespace Broker

/-- Deliver events one after the other. -/
def publishAll (s : Broker) (events : List PipelineEvent) : Broker :=
  events.foldl publishPipelineEvent s

/-- What a sequence of awaited deliveries does to a registered task. -/
structure Deliveries (args : WaitArgs) (task : TaskId) (events : List PipelineEvent)
    (before after : Broker) : Prop where
  hash : after.tasks task =
    (before.tasks task).afterResume ((before.tasks task).firstResume events)
  messages : ∀ worker, (before.tasks task).workerId = some worker →
    after.resumeMessages worker task =
      before.resumeMessages worker task ++ ((before.tasks task).firstResume events).toList
  waiters : after.waiters = before.waiters
  leases : after.leases = before.leases
  cached : after.events args.key = (events.getLast? <|> before.events args.key)

variable {task : TaskId} (s : Broker) {args : WaitArgs}

theorem publishPipelineEvent_deliveries
    {event : PipelineEvent}
    (member : task ∈ s.waiters args.key)
    (awaited : AwaitedBy args event) :
    Deliveries args task [event] s (s.publishPipelineEvent event) := by
  have share := s.publishPipelineEvent_share event task
  have keys := s.publishPipelineEvent_keys event
  have listens := awaited.listens member
  by_cases queues : event.terminal = true ∧ (s.tasks task).acceptsResume = true
  · obtain ⟨hash, messages⟩ := share.queued ⟨queues.1, listens⟩ queues.2
    refine ⟨?_, ?_, keys.waiters, keys.leases, awaited.cached s⟩
    · simp [hash, TaskHash.firstResume, TaskHash.afterResume, queues]
    · intro worker owner
      simp [messages worker owner, TaskHash.firstResume, queues]
  · have kept := share.unchanged fun now => queues ⟨now.1.1, now.2⟩
    have none : (s.tasks task).firstResume [event] = none := by
      simp only [TaskHash.firstResume]
      split
      · rename_i accepts
        have running : event.terminal = false := by
          simpa [accepts] using queues
        simp [running]
      · rfl
    refine ⟨?_, ?_, keys.waiters, keys.leases, awaited.cached s⟩
    · rw [none, kept.hash]
      rfl
    · intro worker _
      rw [none, kept.messages]
      simp

theorem publishAll_deliveries
    (events : List PipelineEvent)
    (member : task ∈ s.waiters args.key)
    (awaited : ∀ event ∈ events, AwaitedBy args event) :
    Deliveries args task events s (s.publishAll events) := by
  induction events generalizing s with
  | nil =>
      refine ⟨?_, ?_, rfl, rfl, ?_⟩
      · simp [publishAll, TaskHash.firstResume, TaskHash.afterResume]
      · intro worker _
        simp [publishAll, TaskHash.firstResume]
      · simp [publishAll]
  | cons event rest ih =>
      have now := publishPipelineEvent_deliveries s member
        (awaited event (List.mem_cons_self ..))
      have later := ih (s.publishPipelineEvent event)
        (now.waiters ▸ member) fun other inRest =>
          awaited other (List.mem_cons_of_mem event inRest)
      have cached : ((event :: rest).getLast? <|> s.events args.key) =
          (rest.getLast? <|> some event) := by
        rw [List.getLast?_cons]
        cases rest.getLast? <;> rfl
      have split := TaskHash.firstResume_cons (s.tasks task) event rest
      have combined := TaskHash.afterResume_firstResume (s.tasks task)
        ((s.tasks task).firstResume [event]) rest
      refine ⟨?_, ?_, later.waiters.trans now.waiters, later.leases.trans now.leases, ?_⟩
      · rw [publishAll, List.foldl_cons, ← publishAll, later.hash, now.hash, combined.1, split]
      · intro worker owner
        have ownerAfter : ((s.publishPipelineEvent event).tasks task).workerId = some worker := by
          rw [now.hash, TaskHash.afterResume_workerId, owner]
        rw [publishAll, List.foldl_cons, ← publishAll, later.messages worker ownerAfter,
          now.messages worker owner, now.hash, List.append_assoc, combined.2, split]
      · rw [publishAll, List.foldl_cons, ← publishAll, later.cached, now.cached, cached]
        rfl

end Broker

/-- The task hash right after its status change, as far as the wait is concerned. -/
structure WaitsFor (args : WaitArgs) (worker : WorkerId) (stored : TaskHash) : Prop where
  owner : stored.workerId = some worker
  waiting : stored.status = some .waitingPipeline
  project : stored.pipeline.projectId = some args.projectId
  sha : stored.pipeline.sha = some args.sha
  attempt : stored.pipeline.attemptId = some args.attemptId
  eventKey : stored.pipeline.eventKey = some args.key
  waiterKey : stored.pipeline.waiterKey = some args.key
  unqueued : stored.pipeline.resumeQueuedAttemptId = none

namespace WaitsFor

variable {args : WaitArgs} {worker : WorkerId} {stored : TaskHash}

theorem attemptId_eq (waits : WaitsFor args worker stored) :
    stored.attemptId = args.attemptId := by
  simp [TaskHash.attemptId, waits.attempt]

theorem firstResume_eq
    (waits : WaitsFor args worker stored)
    (events : List PipelineEvent) :
    stored.firstResume events =
      if args.attemptId ≠ "" then events.find? PipelineEvent.terminal else none := by
  have accepts : stored.acceptsResume = decide ("" ≠ args.attemptId) := by
    simp [TaskHash.acceptsResume, waits.owner, waits.waiting, waits.unqueued, waits.attemptId_eq]
  by_cases unnamed : args.attemptId = ""
  · simp [TaskHash.firstResume, accepts, unnamed]
  · simp [TaskHash.firstResume, accepts, unnamed, Ne.symm unnamed]

end WaitsFor

namespace Broker

variable {task : TaskId} (s : Broker) {stored : TaskHash} {args : WaitArgs} {worker : WorkerId}

theorem resumePipelineIfCached_deliveries
    {queued : Option PipelineEvent}
    {earlier : List PipelineEvent}
    (waits : WaitsFor args worker stored)
    (hash : s.tasks task = stored.afterResume queued)
    (messages : s.resumeMessages worker task = earlier ++ queued.toList)
    (member : task ∈ s.waiters args.key) :
    let resume := queued <|> (s.events args.key).filter (·.luaTerminal)
    (s.resumePipelineIfCached task).1.tasks task = stored.afterResume resume ∧
      (s.resumePipelineIfCached task).1.resumeMessages worker task = earlier ++ resume.toList ∧
      (s.resumePipelineIfCached task).1.waiters = s.waiters ∧
      (s.resumePipelineIfCached task).1.leases = s.leases := by
  cases queued with
  | some event =>
      -- The marker carries the attempt of the wait, so nothing is queued again.
      have idle : s.resumePipelineIfCached task = (s, 0) := by
        simp only [resumePipelineIfCached, hash, TaskHash.afterResume, TaskHash.resumeQueued,
          TaskHash.attemptId, waits.eventKey, waits.waiterKey, waits.owner, waits.waiting]
        cases (s.events args.key).filter (·.luaTerminal) <;> simp [member]
      simp [idle, hash, messages]
  | none =>
      have bare : s.tasks task = stored := hash
      cases found : (s.events args.key).filter (·.luaTerminal) with
      | none =>
          have idle : s.resumePipelineIfCached task = (s, 0) := by
            simp [resumePipelineIfCached, bare, waits.eventKey, waits.waiterKey, waits.owner,
              waits.waiting, member, found]
          simp [idle, bare, messages, TaskHash.afterResume]
      | some event =>
          have queues : s.resumePipelineIfCached task = (s.queueResume task worker event, 1) := by
            simp [resumePipelineIfCached, bare, waits.eventKey, waits.waiterKey, waits.owner,
              waits.waiting, waits.unqueued, member, found]
          simp [queues, bare, messages, queueResume_messages, TaskHash.afterResume]

theorem claimPipelineResume_queued
    {event : PipelineEvent}
    {lease : Option MrLease}
    (waits : WaitsFor args worker stored)
    (hash : s.tasks task = stored.resumeQueued event)
    (awaited : AwaitedBy args event)
    (owned : s.resumeLeaseOk (s.tasks task) lease = true)
    (now : Time) :
    (s.claimPipelineResume task event lease now).2 = .claimed := by
  refine (s.claimPipelineResume_claimed_iff task event lease now).mpr ⟨?_, owned, ?_, ?_, ?_⟩
  · rw [hash]
    exact waits.waiting
  · simp [matchesWait, hash, TaskHash.resumeQueued, waits.project, waits.sha, awaited.project,
      awaited.sha]
  · rw [hash]
    rfl
  · rw [hash]
    rfl

end Broker

/-- One suspend sequence and the events delivered around its steps. -/
structure SuspendRun where
  task : TaskId
  args : WaitArgs
  lease : Option MrLease
  fields : TransitionFields
  registeredAt : Time
  suspendedAt : Time
  /-- Delivered between the registration and the status change. -/
  afterRegister : List PipelineEvent
  /-- Delivered between the status change and the cached check. -/
  afterSuspend : List PipelineEvent
  /-- Delivered after the cached check. -/
  afterCheck : List PipelineEvent
deriving DecidableEq

namespace SuspendRun

variable (run : SuspendRun) (s : Broker)

/-- `register_pipeline_wait`. -/
def register : Broker × Option PipelineEvent :=
  s.registerPipelineWait run.task run.args run.registeredAt

/-- The status change of `TaskExecutor._execute` on `TaskSuspended`. -/
def suspend : Broker × Int :=
  ((run.register s).1.publishAll run.afterRegister).transitionTask run.task [.running]
    .waitingPipeline run.lease run.fields run.suspendedAt

/-- `resume_pipeline_if_cached`. -/
def check : Broker :=
  (((run.suspend s).1.publishAll run.afterSuspend).resumePipelineIfCached run.task).1

/-- The state after the whole sequence and all deliveries. -/
def final : Broker :=
  (run.check s).publishAll run.afterCheck

/-- Every event published after the registration. -/
def events : List PipelineEvent :=
  run.afterRegister ++ run.afterSuspend ++ run.afterCheck

/-- The sequence of the task's owner runs to its end, and the deliveries are the awaited ones. -/
structure Finishes (worker : WorkerId) : Prop where
  uncached : (run.register s).2 = none
  suspended : (run.suspend s).2 = 1
  owner : (s.tasks run.task).workerId = some worker
  fenced : ∀ held, run.lease = some held →
    held.workerId = worker ∧ (s.tasks run.task).fencingToken = some held.fencingToken
  awaited : ∀ event ∈ run.events, AwaitedBy run.args event

/-- Exactly one resume message was appended, and its claim succeeds. -/
def WokenOnce (worker : WorkerId) : Prop :=
  ∃ event,
    (run.final s).resumeMessages worker run.task =
        s.resumeMessages worker run.task ++ [event] ∧
      ∀ now, ((run.final s).claimPipelineResume run.task event run.lease now).2 = .claimed

/-- A terminal event was published after the registration. -/
def Published : Prop :=
  ∃ event ∈ run.events, event.terminal = true

/--
Either a named attempt sees a terminal event once it is waiting, or the event
cached at the time of the check is terminal in the script's exact spelling.
-/
def Reachable : Prop :=
  (run.args.attemptId ≠ "" ∧
      ∃ event ∈ run.afterSuspend ++ run.afterCheck, event.terminal = true) ∨
    ∃ event, (run.afterRegister ++ run.afterSuspend).getLast? = some event ∧
      event.luaTerminal = true

/-- The event of the one resume message, if there is one. -/
def wakeup : Option PipelineEvent :=
  let named (events : List PipelineEvent) : Option PipelineEvent :=
    if run.args.attemptId ≠ "" then events.find? PipelineEvent.terminal else none
  named run.afterSuspend <|>
    ((run.afterRegister ++ run.afterSuspend).getLast?.filter (·.luaTerminal) <|>
      named run.afterCheck)

theorem wakeup_isSome_iff : (∃ event, run.wakeup = some event) ↔ run.Reachable := by
  have named (events : List PipelineEvent) :
      (∃ event, (if run.args.attemptId ≠ "" then events.find? PipelineEvent.terminal else none) =
          some event) ↔
        run.args.attemptId ≠ "" ∧ ∃ event ∈ events, event.terminal = true := by
    by_cases unnamed : run.args.attemptId = ""
    · simp [unnamed]
    · simp [unnamed, ← Option.isSome_iff_exists, List.find?_isSome]
  have either (first second : Option PipelineEvent) :
      (∃ event, (first <|> second) = some event) ↔
        (∃ event, first = some event) ∨ ∃ event, second = some event := by
    cases first <;> simp
  simp only [wakeup, either, named, Reachable, Option.filter_eq_some_iff, List.mem_append,
    or_and_right, exists_or, and_or_left]
  rw [or_assoc]
  exact or_congr_right or_comm

theorem wakeup_mem
    {event : PipelineEvent}
    (woken : run.wakeup = some event) :
    event ∈ run.events := by
  have named {events : List PipelineEvent}
      (found : (if run.args.attemptId ≠ "" then events.find? PipelineEvent.terminal else none) =
        some event) : event ∈ events := by
    split at found
    · exact List.mem_of_find?_eq_some found
    · cases found
  simp only [wakeup, Option.orElse_eq_orElse, Option.orElse_eq_or, Option.or_eq_some_iff] at woken
  simp only [events, List.mem_append]
  rcases woken with early | ⟨_, cached | ⟨_, late⟩⟩
  · exact Or.inl (Or.inr (named early))
  · have last := List.mem_of_getLast? (Option.filter_eq_some_iff.mp cached).1
    exact Or.inl (List.mem_append.mp last)
  · exact Or.inr (named late)

/-- What the status change leaves for the two last steps of the sequence. -/
structure Waiting (worker : WorkerId) : Prop where
  waits : WaitsFor run.args worker ((run.suspend s).1.tasks run.task)
  token : ((run.suspend s).1.tasks run.task).fencingToken = (s.tasks run.task).fencingToken
  member : run.task ∈ (run.suspend s).1.waiters run.args.key
  leases : (run.suspend s).1.leases = s.leases
  owned : s.leaseOk run.lease = true
  messages : (run.suspend s).1.resumeMessages worker run.task =
    s.resumeMessages worker run.task
  cached : (run.suspend s).1.events run.args.key =
    (run.afterRegister.getLast? <|> s.events run.args.key)
  uncached : (s.events run.args.key).filter (·.luaTerminal) = none

variable {run s}

variable {worker : WorkerId}

theorem Finishes.registered
    (finishes : run.Finishes s worker) :
    (s.events run.args.key).filter (·.luaTerminal) = none ∧
      (run.register s).1 = s.registered run.task run.args run.registeredAt := by
  have uncached := finishes.uncached
  unfold register at uncached ⊢
  rcases s.registerPipelineWait_cases run.task run.args run.registeredAt with
    ⟨event, _, cached⟩ | ⟨absent, written⟩
  · rw [cached] at uncached
    cases uncached
  · rw [written]
    exact ⟨absent, rfl⟩

theorem Finishes.transitioned
    (finishes : run.Finishes s worker) :
    let before := (run.register s).1.publishAll run.afterRegister
    (before.tasks run.task).status = some .running ∧ before.leaseOk run.lease = true ∧
      ∃ activeRepairs, (run.suspend s).1 =
        { before with
          tasks := Function.update before.tasks run.task
            (Broker.transitioned .waitingPipeline run.fields run.suspendedAt
              (before.tasks run.task))
          activeRepairs := activeRepairs } := by
  intro before
  have suspended := finishes.suspended
  unfold suspend at suspended ⊢
  rcases before.transitionTask_cases run.task [.running] .waitingPipeline run.lease run.fields
      run.suspendedAt with ⟨reply, refused, replied⟩ | ⟨⟨current, expected, status⟩, owned, made⟩
  · rw [replied] at suspended
    exact absurd suspended refused
  · obtain ⟨activeRepairs, changed⟩ := made
    rw [List.mem_singleton.mp expected] at status
    exact ⟨status, owned, activeRepairs, by rw [changed]⟩

theorem Finishes.waiting
    (finishes : run.Finishes s worker) :
    run.Waiting s worker := by
  obtain ⟨uncached, registered⟩ := finishes.registered
  obtain ⟨running, owned, activeRepairs, suspended⟩ := finishes.transitioned
  have hash : (run.register s).1.tasks run.task =
      { s.tasks run.task with
        pipeline := Broker.registeredPipeline run.args run.registeredAt
          (s.tasks run.task).pipeline } := by
    simp [registered, Broker.registered]
  have member : run.task ∈ (run.register s).1.waiters run.args.key := by
    rw [registered, Broker.mem_registered]
    exact Or.inr ⟨rfl, rfl⟩
  have delivered := Broker.publishAll_deliveries (run.register s).1 run.afterRegister member
    fun event inRegister => finishes.awaited event (by simp [events, inRegister])
  have owner : ((run.register s).1.tasks run.task).workerId = some worker := by
    rw [hash]
    exact finishes.owner
  have idle : ((run.register s).1.tasks run.task).firstResume run.afterRegister = none := by
    rw [delivered.hash, TaskHash.afterResume_status] at running
    simp [TaskHash.firstResume, TaskHash.acceptsResume, running]
  have kept := delivered.hash
  have messages := delivered.messages worker owner
  rw [idle] at kept messages
  have leases : ((run.register s).1.publishAll run.afterRegister).leases = s.leases := by
    rw [delivered.leases, registered]
    rfl
  have suspendedHash : (run.suspend s).1.tasks run.task =
      Broker.transitioned .waitingPipeline run.fields run.suspendedAt
        ((run.register s).1.tasks run.task) := by
    rw [suspended]
    simp [kept, TaskHash.afterResume]
  refine ⟨?_, ?_, ?_, ?_, ?_, ?_, ?_, uncached⟩
  · rw [suspendedHash, hash]
    exact ⟨finishes.owner, rfl, rfl, rfl, rfl, rfl, rfl, rfl⟩
  · rw [suspendedHash, hash]
    rfl
  · rw [suspended]
    exact delivered.waiters ▸ member
  · rw [suspended]
    exact leases
  · rw [← owned]
    cases run.lease with
    | none =>
        rfl
    | some held =>
        simp [Broker.leaseOk, Broker.holds, leases]
  · rw [suspended]
    refine messages.trans ?_
    simp [registered, Broker.registered, Broker.resumeMessages]
  · rw [suspended]
    refine delivered.cached.trans ?_
    simp [registered, Broker.registered]

theorem Finishes.outcome
    (finishes : run.Finishes s worker) :
    (run.final s).tasks run.task =
        ((run.suspend s).1.tasks run.task).afterResume run.wakeup ∧
      (run.final s).resumeMessages worker run.task =
        s.resumeMessages worker run.task ++ run.wakeup.toList ∧
      (run.final s).leases = s.leases := by
  have waiting := finishes.waiting
  have waits := waiting.waits
  -- Deliveries between the status change and the check.
  have early := Broker.publishAll_deliveries (run.suspend s).1 run.afterSuspend waiting.member
    fun event inSuspend => finishes.awaited event (by simp [events, inSuspend])
  have member : run.task ∈ ((run.suspend s).1.publishAll run.afterSuspend).waiters run.args.key :=
    early.waiters ▸ waiting.member
  have cached :
      (((run.suspend s).1.publishAll run.afterSuspend).events run.args.key).filter
          (·.luaTerminal) =
        (run.afterRegister ++ run.afterSuspend).getLast?.filter (·.luaTerminal) := by
    rw [early.cached, waiting.cached, List.getLast?_append]
    cases run.afterSuspend.getLast? with
    | some event =>
        rfl
    | none =>
        cases run.afterRegister.getLast? with
        | some event =>
            rfl
        | none =>
            exact waiting.uncached
  -- The check itself.
  obtain ⟨checkHash, checkMessages, checkWaiters, checkLeases⟩ :=
    Broker.resumePipelineIfCached_deliveries _ waits early.hash
      (early.messages worker waits.owner) member
  rw [cached] at checkHash checkMessages
  have owner : ((run.check s).tasks run.task).workerId = some worker := by
    rw [check, checkHash, TaskHash.afterResume_workerId, waits.owner]
  -- Deliveries after the check.
  have late := Broker.publishAll_deliveries (run.check s) run.afterCheck
    (by rw [check, checkWaiters]; exact member)
    fun event inCheck => finishes.awaited event (by simp [events, inCheck])
  have combined := TaskHash.afterResume_firstResume ((run.suspend s).1.tasks run.task)
    (((run.suspend s).1.tasks run.task).firstResume run.afterSuspend <|>
      (run.afterRegister ++ run.afterSuspend).getLast?.filter (·.luaTerminal)) run.afterCheck
  have resumed :
      ((((run.suspend s).1.tasks run.task).firstResume run.afterSuspend <|>
          (run.afterRegister ++ run.afterSuspend).getLast?.filter (·.luaTerminal)) <|>
        ((run.suspend s).1.tasks run.task).firstResume run.afterCheck) = run.wakeup := by
    rw [waits.firstResume_eq, waits.firstResume_eq]
    simp only [wakeup, Option.orElse_eq_orElse, Option.orElse_eq_or, Option.or_assoc]
  rw [resumed] at combined
  refine ⟨?_, ?_, ?_⟩
  · rw [final, late.hash, check, checkHash, combined.1]
  · rw [final, late.messages worker owner, check, checkHash, checkMessages, waiting.messages,
      List.append_assoc, combined.2]
  · rw [final, late.leases, check, checkLeases, early.leases, waiting.leases]

theorem Finishes.woken_iff
    (finishes : run.Finishes s worker) :
    run.WokenOnce s worker ↔ run.Reachable := by
  obtain ⟨hash, messages, leases⟩ := finishes.outcome
  rw [← wakeup_isSome_iff, WokenOnce, messages]
  constructor
  · rintro ⟨event, appended, _⟩
    refine ⟨event, ?_⟩
    simpa using List.append_cancel_left appended
  · rintro ⟨event, woken⟩
    have waiting := finishes.waiting
    refine ⟨event, by simp [woken], ?_⟩
    rw [woken] at hash
    have owned : (run.final s).resumeLeaseOk ((run.final s).tasks run.task) run.lease = true := by
      cases lease : run.lease with
      | none =>
          rfl
      | some held =>
          obtain ⟨name, token⟩ := finishes.fenced held lease
          have holds : s.leases held.mr = some (held.workerId, held.fencingToken) := by
            simpa [lease, Broker.leaseOk, Broker.holds] using waiting.owned
          simp [Broker.resumeLeaseOk, Broker.holds, leases, holds, hash, waiting.waits.owner,
            waiting.token, name, token]
    exact Broker.claimPipelineResume_queued _ waiting.waits hash
      (finishes.awaited event (run.wakeup_mem woken)) owned

end SuspendRun

/--
A finished suspend sequence is woken by the events published since its
registration exactly if the wait was reachable.
-/
theorem pipeline_wakeup_iff
    (s : Broker)
    (run : SuspendRun)
    (worker : WorkerId)
    (finishes : run.Finishes s worker) :
    (run.Published → run.WokenOnce s worker) ↔ (run.Published → run.Reachable) := by
  rw [finishes.woken_iff]

/-- The sample task suspends, and its pipeline finishes after the cached check. -/
def Sample.suspendRun (attemptId : String) : SuspendRun where
  task := task
  args := { projectId := "group/project", sha := "abc", attemptId := attemptId }
  lease := some leaseA
  fields := { waitKind := some "pipeline", waitIdentity := some "group/project:abc" }
  registeredAt := 4
  suspendedAt := 5
  afterRegister := []
  afterSuspend := []
  afterCheck := [success 7 "t"]

open Sample in
theorem suspendRun_finishes
    {attemptId : String}
    (uncached : ((suspendRun attemptId).register started).2 = none)
    (suspended : ((suspendRun attemptId).suspend started).2 = 1) :
    (suspendRun attemptId).Finishes started workerA := by
  have owner : (started.tasks task).workerId = some workerA := by decide
  have token : (started.tasks task).fencingToken = some leaseA.fencingToken := by decide
  refine ⟨uncached, suspended, owner, ?_, ?_⟩
  · rintro held same
    cases same
    exact ⟨rfl, token⟩
  · intro event delivered
    obtain rfl : event = success 7 "t" := by
      simpa [SuspendRun.events, suspendRun] using delivered
    exact ⟨rfl, rfl, nofun⟩

open Sample in
theorem named_attempt_woken :
    (suspendRun "attempt").Published ∧ (suspendRun "attempt").WokenOnce started workerA := by
  have published : (suspendRun "attempt").Published :=
    ⟨success 7 "t", by decide +kernel, by decide +kernel⟩
  have finishes : (suspendRun "attempt").Finishes started workerA :=
    suspendRun_finishes (by decide +kernel) (by decide +kernel)
  refine ⟨published, ?_⟩
  refine (pipeline_wakeup_iff started _ workerA finishes).mpr ?_ published
  intro _
  exact Or.inl ⟨by decide +kernel, success 7 "t", by decide +kernel, by decide +kernel⟩

open Sample in
/-- The default attempt is not: its absent marker already equals the empty attempt. -/
theorem empty_attempt_not_woken :
    (suspendRun "").Finishes started workerA ∧ (suspendRun "").Published ∧
      ¬(suspendRun "").WokenOnce started workerA := by
  have finishes : (suspendRun "").Finishes started workerA :=
    suspendRun_finishes (by decide +kernel) (by decide +kernel)
  refine ⟨finishes, ⟨success 7 "t", by decide +kernel, by decide +kernel⟩, ?_⟩
  rw [finishes.woken_iff]
  rintro (⟨named, _⟩ | ⟨event, last, _⟩)
  · exact named rfl
  · cases last

end MrAgent
