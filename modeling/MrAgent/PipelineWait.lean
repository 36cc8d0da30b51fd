import MrAgent.AdmissionFrame

namespace MrAgent

/-!
# What the pipeline scripts do to one waiting task

The publish script visits every waiter of two sets. Seen from one task it does
one thing: it caches the event, and if the event is terminal, the task is a
member of a visited set and its markers allow it, it queues one resume
message. The later arguments about waits use these facts only.
-/

theorem PipelineEvent.terminal_of_luaTerminal
    {event : PipelineEvent}
    (lua : event.luaTerminal = true) :
    event.terminal = true := by
  have spelled : event.status ∈ ["success", "failed", "canceled", "skipped"] := by
    simpa [luaTerminal] using lua
  simp only [List.mem_cons, List.not_mem_nil, or_false] at spelled
  unfold terminal loweredStatus
  rcases spelled with status | status | status | status
  · rw [status]
    decide
  · rw [status]
    decide
  · rw [status]
    decide
  · rw [status]
    decide

namespace TaskHash

/-- The publish script would queue a resume for the task. -/
def acceptsResume (task : TaskHash) : Bool :=
  task.workerId.isSome && task.status == some .waitingPipeline &&
    decide (task.pipeline.resumeQueuedAttemptId.getD "" ≠ task.attemptId)

/-- The task with a queued resume recorded in its markers. -/
def resumeQueued (event : PipelineEvent) (task : TaskHash) : TaskHash :=
  { task with
    pipeline :=
      { task.pipeline with
        resumeQueued := some event
        resumeQueuedAttemptId := some task.attemptId } }

theorem acceptsResume_resumeQueued (event : PipelineEvent) (task : TaskHash) :
    (task.resumeQueued event).acceptsResume = false := by
  simp [acceptsResume, resumeQueued, attemptId]

theorem owner_of_acceptsResume
    {task : TaskHash}
    (accepts : task.acceptsResume = true) :
    ∃ worker, task.workerId = some worker := by
  simp only [acceptsResume, Bool.and_eq_true] at accepts
  exact Option.isSome_iff_exists.mp accepts.1.1

end TaskHash

namespace Broker

variable (s : Broker)

/-- The events of a task's resume messages in a worker's inbox, oldest first. -/
def resumeMessages (worker : WorkerId) (task : TaskId) : List PipelineEvent :=
  (s.inbox worker).filterMap fun message =>
    if message.taskId = task ∧ message.deliveryKind = .resumePipeline then message.payload
    else none

/-- The task listens to a key that the publish script visits. -/
def listens (event : PipelineEvent) (task : TaskId) : Prop :=
  task ∈ s.waiters event.shaKey ∨ task ∈ s.waiters event.pipelineKey

instance (event : PipelineEvent) (task : TaskId) : Decidable (s.listens event task) :=
  inferInstanceAs (Decidable (_ ∨ _))

section QueueResume

variable (task : TaskId) (worker : WorkerId) (event : PipelineEvent)

@[simp]
theorem queueResume_tasks :
    (s.queueResume task worker event).tasks =
      Function.update s.tasks task ((s.tasks task).resumeQueued event) := rfl

@[simp]
theorem queueResume_waiters : (s.queueResume task worker event).waiters = s.waiters := rfl

@[simp]
theorem queueResume_leases : (s.queueResume task worker event).leases = s.leases := rfl

theorem queueResume_messages (reader : WorkerId) (other : TaskId) :
    (s.queueResume task worker event).resumeMessages reader other =
      if reader = worker ∧ other = task then s.resumeMessages reader other ++ [event]
      else s.resumeMessages reader other := by
  by_cases sameWorker : reader = worker
  · subst reader
    by_cases sameTask : other = task
    · subst other
      simp [resumeMessages, queueResume]
    · simp [resumeMessages, queueResume, sameTask, Ne.symm sameTask]
  · simp [resumeMessages, queueResume, sameWorker]

end QueueResume

variable (event : PipelineEvent)

theorem publishTo_of_accepts
    {task : TaskId}
    {worker : WorkerId}
    (accepts : (s.tasks task).acceptsResume = true)
    (owner : (s.tasks task).workerId = some worker) :
    publishTo event s task = s.queueResume task worker event := by
  simp only [TaskHash.acceptsResume, Bool.and_eq_true, beq_iff_eq] at accepts
  simp [publishTo, owner, accepts.1.2, of_decide_eq_true accepts.2]

theorem publishTo_of_not_accepts
    {task : TaskId}
    (closed : (s.tasks task).acceptsResume = false) :
    publishTo event s task = s := by
  cases owner : (s.tasks task).workerId with
  | none =>
      simp [publishTo, owner]
  | some worker =>
      have idle :
          ¬((s.tasks task).status = some .waitingPipeline ∧
            (s.tasks task).pipeline.resumeQueuedAttemptId.getD "" ≠
              (s.tasks task).attemptId) := by
        rintro ⟨waiting, unqueued⟩
        simp [TaskHash.acceptsResume, owner, waiting, unqueued] at closed
      simp only [publishTo, owner, Bool.and_eq_true, decide_eq_true_eq]
      rw [if_neg idle]

/-- One task's share of a state that the publish loop can change. -/
structure SameShare (task : TaskId) (before after : Broker) : Prop where
  hash : after.tasks task = before.tasks task
  messages : ∀ worker, after.resumeMessages worker task = before.resumeMessages worker task

/-- The keys that the publish loop never writes. -/
structure SameKeys (before after : Broker) : Prop where
  waiters : after.waiters = before.waiters
  events : after.events = before.events
  leases : after.leases = before.leases
  index : after.pipelineWaiting = before.pipelineWaiting

theorem publishTo_keys (event : PipelineEvent) (task : TaskId) :
    SameKeys s (publishTo event s task) := by
  cases accepts : (s.tasks task).acceptsResume with
  | false =>
      rw [publishTo_of_not_accepts s event accepts]
      exact ⟨rfl, rfl, rfl, rfl⟩
  | true =>
      obtain ⟨worker, owner⟩ := TaskHash.owner_of_acceptsResume accepts
      rw [publishTo_of_accepts s event accepts owner]
      exact ⟨rfl, rfl, rfl, rfl⟩

theorem publishLoop_keys (event : PipelineEvent) (visits : List TaskId) :
    SameKeys s (visits.foldl (publishTo event) s) := by
  induction visits generalizing s with
  | nil =>
      exact ⟨rfl, rfl, rfl, rfl⟩
  | cons first rest ih =>
      have now := publishTo_keys s event first
      have later := ih (publishTo event s first)
      exact ⟨later.waiters.trans now.waiters, later.events.trans now.events,
        later.leases.trans now.leases, later.index.trans now.index⟩

theorem publishTo_other
    {task other : TaskId}
    (different : task ≠ other) :
    SameShare task s (publishTo event s other) := by
  cases accepts : (s.tasks other).acceptsResume with
  | false =>
      rw [publishTo_of_not_accepts s event accepts]
      exact ⟨rfl, fun _ => rfl⟩
  | true =>
      obtain ⟨worker, owner⟩ := TaskHash.owner_of_acceptsResume accepts
      rw [publishTo_of_accepts s event accepts owner]
      refine ⟨by simp [different], ?_⟩
      intro reader
      rw [queueResume_messages, if_neg]
      rintro ⟨_, same⟩
      exact different same

/-- What the publish loop does to one task's share. -/
structure LoopShare (event : PipelineEvent) (task : TaskId) (visited : Prop)
    (before after : Broker) : Prop where
  queued : visited → (before.tasks task).acceptsResume = true →
    after.tasks task = (before.tasks task).resumeQueued event ∧
      ∀ worker, (before.tasks task).workerId = some worker →
        after.resumeMessages worker task = before.resumeMessages worker task ++ [event]
  unchanged : ¬(visited ∧ (before.tasks task).acceptsResume = true) → SameShare task before after

theorem publishLoop_share
    (task : TaskId)
    {visits : List TaskId}
    (once : visits.Nodup) :
    LoopShare event task (task ∈ visits) s (visits.foldl (publishTo event) s) := by
  induction visits generalizing s with
  | nil =>
      refine ⟨?_, ?_⟩
      · intro visited
        cases visited
      · intro _
        exact ⟨rfl, fun _ => rfl⟩
  | cons first rest ih =>
      rw [List.nodup_cons] at once
      have later := ih (publishTo event s first) once.2
      rw [List.foldl_cons]
      by_cases same : task = first
      · subst first
        -- The task is visited now and not again.
        have settled := later.unchanged fun again => once.1 again.1
        refine ⟨?_, ?_⟩
        · intro _ accepts
          obtain ⟨worker, owner⟩ := TaskHash.owner_of_acceptsResume accepts
          rw [publishTo_of_accepts s event accepts owner] at settled ⊢
          refine ⟨settled.hash.trans (by simp), ?_⟩
          intro reader readerOwns
          rw [owner] at readerOwns
          cases readerOwns
          rw [settled.messages, queueResume_messages, if_pos ⟨rfl, rfl⟩]
        · intro closed
          have refused : (s.tasks task).acceptsResume = false := by
            simpa using closed
          rw [publishTo_of_not_accepts s event refused] at settled ⊢
          exact settled
      · have untouched := publishTo_other s event same
        refine ⟨?_, ?_⟩
        · intro visited accepts
          have inRest : task ∈ rest := (List.mem_cons.mp visited).resolve_left same
          obtain ⟨hash, messages⟩ := later.queued inRest (untouched.hash ▸ accepts)
          refine ⟨by rw [hash, untouched.hash], ?_⟩
          intro worker owner
          rw [messages worker (untouched.hash ▸ owner), untouched.messages]
        · intro closed
          have kept := later.unchanged (by
            rw [untouched.hash]
            rintro ⟨inRest, accepts⟩
            exact closed ⟨List.mem_cons_of_mem first inRest, accepts⟩)
          exact ⟨kept.hash.trans untouched.hash,
            fun worker => (kept.messages worker).trans (untouched.messages worker)⟩

/-- The two keys under which an event is cached. -/
def cachedAs (event : PipelineEvent) : Broker :=
  (s.setEvent event.shaKey event).setEvent event.pipelineKey event

theorem publishPipelineEvent_eq (event : PipelineEvent) :
    s.publishPipelineEvent event =
      if event.terminal then
        (s.waiters event.shaKey ++ s.waiters event.pipelineKey).dedup.foldl (publishTo event)
          (s.cachedAs event)
      else s.cachedAs event := by
  unfold publishPipelineEvent cachedAs
  cases event.terminal <;> rfl

theorem publishPipelineEvent_share (event : PipelineEvent) (task : TaskId) :
    LoopShare event task (event.terminal = true ∧ s.listens event task) s
      (s.publishPipelineEvent event) := by
  rw [publishPipelineEvent_eq]
  cases terminal : event.terminal with
  | false =>
      refine ⟨?_, fun _ => ⟨rfl, fun _ => rfl⟩⟩
      rintro ⟨impossible, _⟩
      cases impossible
  | true =>
      have visited :
          task ∈ (s.waiters event.shaKey ++ s.waiters event.pipelineKey).dedup ↔
            s.listens event task := by
        rw [List.mem_dedup, List.mem_append, listens]
      have loop := publishLoop_share (s.cachedAs event) event task
        (List.nodup_dedup (s.waiters event.shaKey ++ s.waiters event.pipelineKey))
      rw [visited] at loop
      rw [if_pos rfl]
      refine ⟨fun now => loop.queued now.2, ?_⟩
      intro closed
      have kept := loop.unchanged fun now => closed ⟨⟨rfl, now.1⟩, now.2⟩
      exact ⟨kept.hash, kept.messages⟩

/-- What one delivery of an event does to the keys. -/
structure Published (event : PipelineEvent) (before after : Broker) : Prop where
  waiters : after.waiters = before.waiters
  leases : after.leases = before.leases
  index : after.pipelineWaiting = before.pipelineWaiting
  events : after.events =
    Function.update (Function.update before.events event.shaKey (some event)) event.pipelineKey
      (some event)

theorem publishPipelineEvent_keys (event : PipelineEvent) :
    Published event s (s.publishPipelineEvent event) := by
  rw [publishPipelineEvent_eq]
  cases event.terminal with
  | false =>
      exact ⟨rfl, rfl, rfl, rfl⟩
  | true =>
      have keys := publishLoop_keys (s.cachedAs event) event
        (s.waiters event.shaKey ++ s.waiters event.pipelineKey).dedup
      exact ⟨keys.waiters, keys.leases, keys.index, keys.events⟩

theorem publishPipelineEvent_hash (event : PipelineEvent) (task : TaskId) :
    (s.publishPipelineEvent event).tasks task = s.tasks task ∨
      (event.terminal = true ∧ s.listens event task ∧ (s.tasks task).acceptsResume = true ∧
        (s.publishPipelineEvent event).tasks task = (s.tasks task).resumeQueued event) := by
  have share := s.publishPipelineEvent_share event task
  by_cases queues :
      (event.terminal = true ∧ s.listens event task) ∧ (s.tasks task).acceptsResume = true
  · obtain ⟨⟨terminal, listens⟩, accepts⟩ := queues
    exact Or.inr ⟨terminal, listens, accepts, (share.queued ⟨terminal, listens⟩ accepts).1⟩
  · exact Or.inl (share.unchanged queues).hash

theorem resumePipelineIfCached_cases (task : TaskId) :
    s.resumePipelineIfCached task = (s, 0) ∨
      ∃ key worker event,
        (s.tasks task).pipeline.eventKey = some key ∧
          (s.tasks task).workerId = some worker ∧
          (s.tasks task).status = some .waitingPipeline ∧
          s.events key = some event ∧
          event.luaTerminal = true ∧
          (s.tasks task).pipeline.resumeQueuedAttemptId ≠ some (s.tasks task).attemptId ∧
          s.resumePipelineIfCached task = (s.queueResume task worker event, 1) := by
  dsimp only [resumePipelineIfCached]
  split
  · rename_i key waiterKey worker eventKey _ owner
    split
    · exact Or.inl rfl
    · rename_i waiting
      split
      · exact Or.inl rfl
      · split
        · exact Or.inl rfl
        · rename_i event cached
          obtain ⟨cached, terminal⟩ := Option.filter_eq_some_iff.mp cached
          split
          · exact Or.inl rfl
          · rename_i unqueued
            exact Or.inr ⟨key, worker, event, eventKey, owner, not_not.mp waiting, cached,
              terminal, unqueued, rfl⟩
  · exact Or.inl rfl

theorem claimPipelineResume_cases
    (task : TaskId)
    (event : PipelineEvent)
    (lease : Option MrLease)
    (now : Time) :
    (∃ reply, reply ≠ .claimed ∧ s.claimPipelineResume task event lease now = (s, reply)) ∨
      ((s.tasks task).status = some .waitingPipeline ∧
        s.resumeLeaseOk (s.tasks task) lease = true ∧
        matchesWait (s.tasks task) event = true ∧
        (s.tasks task).pipeline.resumeQueuedAttemptId.getD "" = (s.tasks task).attemptId ∧
        (s.tasks task).pipeline.resumeQueued = some event ∧
        s.claimPipelineResume task event lease now =
          (((s.dropWaiter task).setPipelineWaiting task none).updTask task
            (claimedResume event now), .claimed)) := by
  dsimp only [claimPipelineResume]
  split
  · split
    · exact Or.inl ⟨.duplicate, nofun, rfl⟩
    · exact Or.inl ⟨.stale, nofun, rfl⟩
  · rename_i waiting
    split
    · exact Or.inl ⟨.lostLease, nofun, rfl⟩
    · rename_i owned
      split
      · exact Or.inl ⟨.stale, nofun, rfl⟩
      · rename_i identity
        split
        · exact Or.inl ⟨.stale, nofun, rfl⟩
        · rename_i marker
          simp only [Bool.or_eq_true, decide_eq_true_eq, not_or, not_not] at marker
          exact Or.inr ⟨not_not.mp waiting, by simpa using owned, by simpa using identity,
            marker.1, marker.2, rfl⟩

theorem claimPipelineResume_claimed_iff
    (task : TaskId)
    (event : PipelineEvent)
    (lease : Option MrLease)
    (now : Time) :
    (s.claimPipelineResume task event lease now).2 = .claimed ↔
      (s.tasks task).status = some .waitingPipeline ∧
        s.resumeLeaseOk (s.tasks task) lease = true ∧
        matchesWait (s.tasks task) event = true ∧
        (s.tasks task).pipeline.resumeQueuedAttemptId.getD "" = (s.tasks task).attemptId ∧
        (s.tasks task).pipeline.resumeQueued = some event := by
  constructor
  · intro accepted
    rcases s.claimPipelineResume_cases task event lease now with
      ⟨reply, refused, replied⟩ | ⟨waiting, owned, identity, attempt, queued, _⟩
    · rw [replied] at accepted
      exact absurd accepted refused
    · exact ⟨waiting, owned, identity, attempt, queued⟩
  · rintro ⟨waiting, owned, identity, attempt, queued⟩
    simp [claimPipelineResume, waiting, owned, identity, attempt, queued]

/-- The state a registration leaves when it finds no cached terminal event. -/
def registered (task : TaskId) (args : WaitArgs) (now : Time) : Broker :=
  ((s.addWaiter args.key task).updTask task fun t =>
    { t with pipeline := registeredPipeline args now t.pipeline }).setPipelineWaiting task
      (some now)

theorem registerPipelineWait_cases (task : TaskId) (args : WaitArgs) (now : Time) :
    (∃ event, event.luaTerminal = true ∧
        s.registerPipelineWait task args now = (s, some event)) ∨
      ((s.events args.key).filter (·.luaTerminal) = none ∧
        s.registerPipelineWait task args now = (s.registered task args now, none)) := by
  cases cached : (s.events args.key).filter (·.luaTerminal) with
  | none =>
      refine Or.inr ⟨rfl, ?_⟩
      simp [registerPipelineWait, cached, registered]
  | some event =>
      refine Or.inl ⟨event, (Option.filter_eq_some_iff.mp cached).2, ?_⟩
      simp [registerPipelineWait, cached]

section Registered

variable (task : TaskId) (args : WaitArgs) (now : Time)

theorem registered_pipeline :
    ((s.registered task args now).tasks task).pipeline =
      registeredPipeline args now (s.tasks task).pipeline := by
  simp [registered]

theorem registered_of_ne
    {other : TaskId}
    (different : other ≠ task) :
    (s.registered task args now).tasks other = s.tasks other := by
  simp [registered, different]

theorem mem_registered (other : TaskId) (key : WaitKey) :
    other ∈ (s.registered task args now).waiters key ↔
      other ∈ s.waiters key ∨ (other = task ∧ key = args.key) := by
  by_cases same : key = args.key
  · subst key
    simp [registered]
  · simp [registered, same]

end Registered

theorem mem_dropWaiter (task other : TaskId) (key : WaitKey) :
    other ∈ (s.dropWaiter task).waiters key ↔
      other ∈ s.waiters key ∧
        ¬(other = task ∧ (s.tasks task).pipeline.waiterKey = some key) := by
  unfold dropWaiter
  cases registered : (s.tasks task).pipeline.waiterKey with
  | none =>
      simp
  | some own =>
      by_cases same : key = own
      · subst key
        simp
      · simp [same, Ne.symm same]

/-- Events are cached under keys of their own project, SHA and pipeline. -/
def EventsKeyed : Prop :=
  ∀ key event, s.events key = some event →
    event.projectId = key.projectId ∧ event.sha = key.sha ∧
      ∀ pipelineId, key.pipelineId = some pipelineId → event.pipelineId = pipelineId

variable {after : Broker}

variable {s} in
theorem EventsKeyed.of_events
    (keyed : s.EventsKeyed)
    (events : after.events = s.events) :
    after.EventsKeyed := by
  intro key event cached
  rw [events] at cached
  exact keyed key event cached

variable {s} in
theorem EventsKeyed.publish
    (keyed : s.EventsKeyed)
    (event : PipelineEvent) :
    (s.publishPipelineEvent event).EventsKeyed := by
  intro key cached found
  rw [(s.publishPipelineEvent_keys event).events] at found
  by_cases pipelineKey : key = event.pipelineKey
  · subst key
    obtain rfl : event = cached := by simpa using found
    exact ⟨rfl, rfl, fun pipelineId same => Option.some.inj same⟩
  · rw [Function.update_of_ne pipelineKey] at found
    by_cases shaKey : key = event.shaKey
    · subst key
      obtain rfl : event = cached := by simpa using found
      exact ⟨rfl, rfl, nofun⟩
    · rw [Function.update_of_ne shaKey] at found
      exact keyed key cached found

/-! ## Calls that do not touch the waits -/

/-- A call changed no wait registration, waiter set or cached event. -/
structure SameWaits (before after : Broker) : Prop where
  pipeline : ∀ task, (after.tasks task).pipeline = (before.tasks task).pipeline
  waiters : after.waiters = before.waiters
  events : after.events = before.events
  index : after.pipelineWaiting = before.pipelineWaiting

/-- A call put no task into the waiting status. -/
def NoNewWait (before after : Broker) : Prop :=
  ∀ task, (after.tasks task).status = some .waitingPipeline →
    (before.tasks task).status = some .waitingPipeline

variable {s}

theorem SameWaits.refl (s : Broker) : SameWaits s s :=
  ⟨fun _ => rfl, rfl, rfl, rfl⟩

variable {hash : TaskHash}

theorem SameWaits.of_task
    {task : TaskId}
    (tasks : after.tasks = Function.update s.tasks task hash)
    (pipeline : hash.pipeline = (s.tasks task).pipeline)
    (waiters : after.waiters = s.waiters)
    (events : after.events = s.events)
    (index : after.pipelineWaiting = s.pipelineWaiting) :
    SameWaits s after := by
  refine ⟨?_, waiters, events, index⟩
  intro other
  rw [tasks]
  by_cases same : other = task
  · subst other
    simp [pipeline]
  · simp [same]

theorem NoNewWait.of_task
    {task : TaskId}
    (tasks : after.tasks = Function.update s.tasks task hash)
    (status : hash.status = some .waitingPipeline →
      (s.tasks task).status = some .waitingPipeline) :
    NoNewWait s after := by
  intro other waiting
  rw [tasks] at waiting
  by_cases same : other = task
  · subst other
    exact status (by simpa using waiting)
  · simpa [same] using waiting

variable (s)

theorem leaseStep_sameWaits (op : LeaseOp) :
    SameWaits s (s.leaseStep op) ∧ (s.leaseStep op).tasks = s.tasks := by
  obtain ⟨leases, fences, changed⟩ := leaseStep_frame s op
  rw [changed]
  exact ⟨⟨fun _ => rfl, rfl, rfl, rfl⟩, rfl⟩

theorem transitionTask_sameWaits
    (task : TaskId) (expected : List TaskStatus) (target : TaskStatus) (lease : Option MrLease)
    (fields : TransitionFields) (now : Time) :
    SameWaits s (s.transitionTask task expected target lease fields now).1 := by
  rcases s.transitionTask_cases task expected target lease fields now with
    ⟨reply, _, refused⟩ | ⟨_, _, activeRepairs, changed⟩
  · rw [refused]
    exact SameWaits.refl s
  · rw [changed]
    exact SameWaits.of_task rfl rfl rfl rfl rfl

theorem transitionTask_noNewWait
    (task : TaskId) (expected : List TaskStatus) (target : TaskStatus) (lease : Option MrLease)
    (fields : TransitionFields) (now : Time)
    (different : target ≠ .waitingPipeline) :
    NoNewWait s (s.transitionTask task expected target lease fields now).1 := by
  rcases s.transitionTask_cases task expected target lease fields now with
    ⟨reply, _, refused⟩ | ⟨_, _, activeRepairs, changed⟩
  · rw [refused]
    exact fun _ => id
  · rw [changed]
    exact NoNewWait.of_task rfl fun waiting => absurd (Option.some.inj waiting) different

theorem assignToWorker_sameWaits
    (task : TaskId) (lease : Option MrLease) (worker : WorkerId) (now : Time) :
    SameWaits s (s.assignToWorker task lease worker now).1 ∧
      NoNewWait s (s.assignToWorker task lease worker now).1 := by
  have assigned : ∀ held,
      SameWaits s (s.assignTask task held worker now).1 ∧
        NoNewWait s (s.assignTask task held worker now).1 := by
    intro held
    unfold assignTask
    split
    · exact ⟨SameWaits.refl s, fun _ => id⟩
    · split
      · exact ⟨SameWaits.refl s, fun _ => id⟩
      · exact ⟨SameWaits.of_task rfl rfl rfl rfl rfl, NoNewWait.of_task rfl nofun⟩
  unfold assignToWorker
  split
  · split
    · exact ⟨SameWaits.refl s, fun _ => id⟩
    · exact assigned _
  · exact assigned none

theorem recoverDeadTask_cases
    (worker : WorkerId) (task : TaskId) (retryLimit : Nat) (now : Time) :
    let after := (s.recoverDeadTask worker task retryLimit now).1
    (after.waiters = s.waiters ∧ after.events = s.events ∧
        after.pipelineWaiting = s.pipelineWaiting) ∧
      (after.tasks = s.tasks ∨
        (s.tasks task).status ≠ some .waitingPipeline ∧
          ∃ hash, after.tasks = Function.update s.tasks task hash ∧
            hash.pipeline = (s.tasks task).pipeline ∧ hash.status ≠ some .waitingPipeline) := by
  dsimp only [recoverDeadTask]
  split
  · exact ⟨⟨rfl, rfl, rfl⟩, Or.inl rfl⟩
  · cases stored : (s.tasks task).status with
    | none =>
        exact ⟨⟨rfl, rfl, rfl⟩, Or.inl rfl⟩
    | some status =>
        cases status with
        | queued | waitingPipeline | publishing | canceled | completed | failed
          | pausedByTriage =>
            exact ⟨⟨rfl, rfl, rfl⟩, Or.inl rfl⟩
        | assigned | running =>
            dsimp only [retryDeadTask]
            split
            · exact ⟨⟨rfl, rfl, rfl⟩, Or.inr ⟨nofun, _, rfl, rfl, nofun⟩⟩
            · split
              · exact ⟨⟨rfl, rfl, rfl⟩, Or.inr ⟨nofun, _, rfl, rfl, nofun⟩⟩
              · exact ⟨⟨rfl, rfl, rfl⟩, Or.inr ⟨nofun, _, rfl, rfl, nofun⟩⟩

theorem recoverDeadTask_sameWaits
    (worker : WorkerId) (task : TaskId) (retryLimit : Nat) (now : Time) :
    SameWaits s (s.recoverDeadTask worker task retryLimit now).1 ∧
      NoNewWait s (s.recoverDeadTask worker task retryLimit now).1 := by
  obtain ⟨⟨waiters, events, index⟩, same | ⟨_, hash, tasks, pipeline, idle⟩⟩ :=
    s.recoverDeadTask_cases worker task retryLimit now
  · refine ⟨⟨fun other => by rw [same], waiters, events, index⟩, ?_⟩
    intro other waiting
    rwa [same] at waiting
  · exact ⟨SameWaits.of_task tasks pipeline waiters events index,
      NoNewWait.of_task tasks fun waiting => absurd waiting idle⟩

theorem recoverDeadTask_waiting
    {other : TaskId}
    (worker : WorkerId) (task : TaskId) (retryLimit : Nat) (now : Time)
    (waiting : (s.tasks other).status = some .waitingPipeline) :
    (s.recoverDeadTask worker task retryLimit now).1.tasks other = s.tasks other := by
  obtain ⟨_, same | ⟨idle, hash, tasks, _⟩⟩ :=
    s.recoverDeadTask_cases worker task retryLimit now
  · rw [same]
  · have different : other ≠ task := by
      rintro rfl
      exact idle waiting
    rw [tasks, Function.update_of_ne different]

/-- The hash a transfer leaves. -/
def handedOver (lease : MrLease) (now : Time) (stored : TaskHash) : TaskHash :=
  { stored with
    workerId := some lease.workerId
    fencingToken := some lease.fencingToken
    updatedAt := some now }

theorem transferOrphanedTask_cases
    (task : TaskId) (oldWorker : WorkerId) (lease : MrLease) (event : Option PipelineEvent)
    (now : Time) :
    (∃ reply, reply ≠ 1 ∧ s.transferOrphanedTask task oldWorker lease event now = (s, reply)) ∨
      ((s.tasks task).workerId = some oldWorker ∧
        s.holds lease = true ∧
        ∃ workerTasks,
          let handed :=
            { s with
              tasks := Function.update s.tasks task (handedOver lease now (s.tasks task))
              workerTasks := workerTasks }
          s.transferOrphanedTask task oldWorker lease event now =
            (match event with
              | some event =>
                if (s.tasks task).status = some .waitingPipeline then
                  handed.pushInbox lease.workerId task .resumePipeline (some event)
                else handed
              | none => handed, 1)) := by
  dsimp only [transferOrphanedTask]
  split
  · exact Or.inl ⟨0, by decide, rfl⟩
  · rename_i orphan
    split
    · exact Or.inl ⟨-1, by decide, rfl⟩
    · rename_i held
      simp only [Bool.or_eq_true, decide_eq_true_eq, not_or, not_not] at orphan
      refine Or.inr ⟨orphan.1, by simpa using held,
        ((s.remWorkerTask oldWorker task).addWorkerTask lease.workerId task).workerTasks, ?_⟩
      cases event with
      | none =>
          rfl
      | some event =>
          by_cases waiting : (s.tasks task).status = some .waitingPipeline
          · simp only [waiting, if_true]
            rfl
          · simp only [waiting, if_false]
            rfl

theorem transferOrphanedTask_sameWaits
    (task : TaskId) (oldWorker : WorkerId) (lease : MrLease) (event : Option PipelineEvent)
    (now : Time) :
    SameWaits s (s.transferOrphanedTask task oldWorker lease event now).1 ∧
      NoNewWait s (s.transferOrphanedTask task oldWorker lease event now).1 := by
  rcases s.transferOrphanedTask_cases task oldWorker lease event now with
    ⟨reply, _, refused⟩ | ⟨_, _, workerTasks, handed⟩
  · rw [refused]
    exact ⟨SameWaits.refl s, fun _ => id⟩
  · rw [handed]
    split
    · split
      · exact ⟨SameWaits.of_task rfl rfl rfl rfl rfl, NoNewWait.of_task rfl id⟩
      · exact ⟨SameWaits.of_task rfl rfl rfl rfl rfl, NoNewWait.of_task rfl id⟩
    · exact ⟨SameWaits.of_task rfl rfl rfl rfl rfl, NoNewWait.of_task rfl id⟩

end Broker

namespace Sample

def task : TaskId := ⟨"task", by decide⟩

def leaseA : MrLease := ⟨mr, workerA, 1⟩

/-- A finished pipeline of the sample merge request. -/
def success (pipelineId : Nat) (occurredAt : String) : PipelineEvent where
  projectId := "group/project"
  pipelineId := pipelineId
  sha := "abc"
  status := "success"
  ref := "feature"
  occurredAt := occurredAt

/-- The calls that put the sample task into execution on worker A. -/
def startOps : List Op :=
  [.admission (.enqueue ⟨envelope task .prCommand "/repair-pipeline" "key", true⟩),
    .lease (.claim mr workerA),
    .task (.assign task (some leaseA) workerA 2),
    .task (.transition task .start (some leaseA) {} 3)]

/-- The sample task runs on worker A. -/
def started : Broker :=
  startOps.foldl Broker.step Broker.empty

end Sample

end MrAgent
