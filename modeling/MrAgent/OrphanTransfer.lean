import MrAgent.PipelineWakeup

namespace MrAgent

open TransitionSystem

/-!
# Transfer of a waiting task to another worker

When the worker of a waiting task dies, the scheduler transfers the task with
the event that is cached at that moment. The claim of the resume compares the
message with the event recorded in the task, which an earlier delivery may have
set. The module shows exactly when the new owner can be resumed.
-/

/--
The task waits for `args` under an owner. Its hash is one without markers, to
which at most one queued resume was added.
-/
structure Awaiting (args : WaitArgs) (task : TaskId) (worker : WorkerId) (stored : TaskHash)
    (queued : Option PipelineEvent) (s : Broker) : Prop where
  waits : WaitsFor args worker stored
  blank : stored.pipeline.resumeQueued = none
  hash : s.tasks task = stored.afterResume queued
  member : task ∈ s.waiters args.key
  keyed : s.EventsKeyed

/-- The task waits for `args`, whoever owns it and whatever is queued. -/
def Waits (args : WaitArgs) (task : TaskId) (s : Broker) : Prop :=
  ∃ worker stored queued, Awaiting args task worker stored queued s

/-- Deliveries, cached checks, lease calls, dead-worker recovery and transfers. -/
inductive RecoveryOp (s : Broker) : Op → Prop
  | lease (op : LeaseOp) : RecoveryOp s (.lease op)
  | publish (event : PipelineEvent) : RecoveryOp s (.pipeline (.publish event))
  | resumeCached (task : TaskId) : RecoveryOp s (.pipeline (.resumeCached task))
  | recoverDead (worker : WorkerId) (task : TaskId) (retryLimit : Nat) (now : Time) :
      RecoveryOp s (.task (.recoverDead worker task retryLimit now))
  | transfer (task : TaskId) (oldWorker : WorkerId) (lease : MrLease)
      (event : Option PipelineEvent) (now : Time) :
      RecoveryOp s (.task (.transfer task oldWorker lease event now))

namespace Awaiting

variable {args : WaitArgs} {task : TaskId} {worker : WorkerId} {stored : TaskHash}
  {queued : Option PipelineEvent} {s : Broker}

theorem resumeQueued_eq (awaiting : Awaiting args task worker stored queued s) :
    (s.tasks task).pipeline.resumeQueued = queued := by
  rw [awaiting.hash]
  cases queued with
  | none =>
      exact awaiting.blank
  | some event =>
      rfl

theorem status_eq (awaiting : Awaiting args task worker stored queued s) :
    (s.tasks task).status = some .waitingPipeline := by
  rw [awaiting.hash, TaskHash.afterResume_status]
  exact awaiting.waits.waiting

variable {after : Broker}

theorem of_same
    (awaiting : Awaiting args task worker stored queued s)
    (hash : after.tasks task = s.tasks task)
    (waiters : after.waiters = s.waiters)
    (events : after.events = s.events) :
    Awaiting args task worker stored queued after := by
  exact ⟨awaiting.waits, awaiting.blank, hash.trans awaiting.hash, waiters ▸ awaiting.member,
    awaiting.keyed.of_events events⟩

theorem unqueued_of_accepts
    (awaiting : Awaiting args task worker stored queued s)
    (accepts : (s.tasks task).acceptsResume = true) :
    queued = none := by
  cases queued with
  | none =>
      rfl
  | some event =>
      rw [awaiting.hash, TaskHash.afterResume, TaskHash.acceptsResume_resumeQueued] at accepts
      cases accepts

theorem publish
    (awaiting : Awaiting args task worker stored queued s)
    (event : PipelineEvent) :
    Waits args task (s.publishPipelineEvent event) := by
  have keys := s.publishPipelineEvent_keys event
  have keyed := awaiting.keyed.publish event
  have member : task ∈ (s.publishPipelineEvent event).waiters args.key :=
    keys.waiters ▸ awaiting.member
  rcases s.publishPipelineEvent_hash event task with same | ⟨_, _, accepts, queues⟩
  · exact ⟨worker, stored, queued, awaiting.waits, awaiting.blank, same.trans awaiting.hash,
      member, keyed⟩
  · cases awaiting.unqueued_of_accepts accepts
    refine ⟨worker, stored, some event, awaiting.waits, awaiting.blank, ?_, member, keyed⟩
    rw [queues, awaiting.hash]
    rfl

theorem resumeCached
    (awaiting : Awaiting args task worker stored queued s)
    (other : TaskId) :
    Waits args task (s.resumePipelineIfCached other).1 := by
  rcases s.resumePipelineIfCached_cases other with
    idle | ⟨key, owner, event, _, _, _, _, _, unqueued, queues⟩
  · rw [idle]
    exact ⟨worker, stored, queued, awaiting⟩
  · rw [queues]
    by_cases same : task = other
    · subst other
      have fresh : queued = none := by
        cases queued with
        | none =>
            rfl
        | some earlier =>
            rw [awaiting.hash] at unqueued
            exact absurd rfl unqueued
      subst queued
      refine ⟨worker, stored, some event, awaiting.waits, awaiting.blank, ?_, awaiting.member,
        awaiting.keyed⟩
      simp [awaiting.hash, TaskHash.afterResume]
    · exact ⟨worker, stored, queued, awaiting.of_same (by simp [same]) rfl rfl⟩

theorem handedOver
    (awaiting : Awaiting args task worker stored queued s)
    (lease : MrLease) (now : Time)
    (hash : after.tasks task = Broker.handedOver lease now (s.tasks task))
    (waiters : after.waiters = s.waiters)
    (events : after.events = s.events) :
    Awaiting args task lease.workerId (Broker.handedOver lease now stored) queued after := by
  have waits := awaiting.waits
  refine ⟨⟨rfl, waits.waiting, waits.project, waits.sha, waits.attempt, waits.eventKey,
    waits.waiterKey, waits.unqueued⟩, awaiting.blank, ?_, waiters ▸ awaiting.member,
    awaiting.keyed.of_events events⟩
  rw [hash, awaiting.hash]
  cases queued <;> rfl

theorem transfer
    (awaiting : Awaiting args task worker stored queued s)
    (other : TaskId) (oldWorker : WorkerId) (lease : MrLease) (event : Option PipelineEvent)
    (now : Time) :
    Waits args task (s.transferOrphanedTask other oldWorker lease event now).1 := by
  have same := (s.transferOrphanedTask_sameWaits other oldWorker lease event now).1
  rcases s.transferOrphanedTask_cases other oldWorker lease event now with
    ⟨reply, _, refused⟩ | ⟨_, _, workerTasks, handed⟩
  · rw [refused]
    exact ⟨worker, stored, queued, awaiting⟩
  · have tasks : (s.transferOrphanedTask other oldWorker lease event now).1.tasks =
        Function.update s.tasks other (Broker.handedOver lease now (s.tasks other)) := by
      rw [handed]
      split
      · split <;> rfl
      · rfl
    by_cases sameTask : task = other
    · subst other
      exact ⟨lease.workerId, _, queued, awaiting.handedOver lease now (by simp [tasks])
        same.waiters same.events⟩
    · exact ⟨worker, stored, queued, awaiting.of_same (by simp [tasks, sameTask]) same.waiters
        same.events⟩

end Awaiting

variable {args : WaitArgs}

theorem Waits.step
    {task : TaskId}
    (s : Broker)
    (op : Op)
    (waits : Waits args task s)
    (recovery : RecoveryOp s op) :
    Waits args task (s.step op) := by
  obtain ⟨worker, stored, queued, awaiting⟩ := waits
  cases recovery with
  | lease op =>
      obtain ⟨same, tasks⟩ := s.leaseStep_sameWaits op
      exact ⟨worker, stored, queued, awaiting.of_same (congrFun tasks task) same.waiters
        same.events⟩
  | publish event =>
      exact awaiting.publish event
  | resumeCached other =>
      exact awaiting.resumeCached other
  | recoverDead dead other retryLimit now =>
      have same := (s.recoverDeadTask_sameWaits dead other retryLimit now).1
      exact ⟨worker, stored, queued, awaiting.of_same
        (s.recoverDeadTask_waiting dead other retryLimit now awaiting.status_eq) same.waiters
        same.events⟩
  | transfer other oldWorker lease event now =>
      exact awaiting.transfer other oldWorker lease event now

/-- The owner's inbox holds a resume message whose claim succeeds. -/
def Claimable (task : TaskId) (lease : MrLease) (s : Broker) : Prop :=
  ∃ event ∈ s.resumeMessages lease.workerId task,
    ∀ now, (s.claimPipelineResume task event (some lease) now).2 = .claimed

/--
The owner has such a message, or a cached check, or every terminal event of
the wait, still produces one.
-/
def OwnerResumable (args : WaitArgs) (task : TaskId) (lease : MrLease) (s : Broker) : Prop :=
  Claimable task lease s ∨
    Claimable task lease (s.resumePipelineIfCached task).1 ∨
    ∀ event, AwaitedBy args event → event.terminal = true →
      Claimable task lease (s.publishPipelineEvent event)

/-- The lease of the task's owner, live and recorded in the task. -/
def OwnedUnder (task : TaskId) (lease : MrLease) (s : Broker) : Prop :=
  s.resumeLeaseOk (s.tasks task) (some lease) = true

variable {lease : MrLease}

theorem Claimable.congr
    {task : TaskId}
    {before after : Broker}
    (hash : after.tasks task = before.tasks task)
    (messages : after.resumeMessages lease.workerId task =
      before.resumeMessages lease.workerId task)
    (leases : after.leases = before.leases) :
    Claimable task lease after ↔ Claimable task lease before := by
  simp only [Claimable, Broker.claimPipelineResume_claimed_iff, hash, messages,
    Broker.resumeLeaseOk, Broker.holds, leases]

namespace Awaiting

variable {args : WaitArgs} {task : TaskId} {stored : TaskHash}
  {queued : Option PipelineEvent} {s : Broker} {lease : MrLease}

theorem claimable_iff
    (awaiting : Awaiting args task lease.workerId stored queued s)
    (owned : OwnedUnder task lease s) :
    Claimable task lease s ↔
      ∃ event, queued = some event ∧ event ∈ s.resumeMessages lease.workerId task ∧
        Broker.matchesWait (s.tasks task) event = true := by
  have recorded := awaiting.resumeQueued_eq
  constructor
  · rintro ⟨event, message, accepted⟩
    obtain ⟨_, _, identity, _, marker⟩ :=
      (s.claimPipelineResume_claimed_iff task event (some lease) 0).mp (accepted 0)
    exact ⟨event, recorded.symm.trans marker, message, identity⟩
  · rintro ⟨event, rfl, message, identity⟩
    refine ⟨event, message, ?_⟩
    intro now
    refine (s.claimPipelineResume_claimed_iff task event (some lease) now).mpr
      ⟨awaiting.status_eq, owned, identity, ?_, recorded⟩
    rw [awaiting.hash]
    rfl

theorem claimable_publish_closed
    (closed : (s.tasks task).acceptsResume = false)
    (event : PipelineEvent) :
    Claimable task lease (s.publishPipelineEvent event) ↔ Claimable task lease s := by
  have kept := (s.publishPipelineEvent_share event task).unchanged fun now => by
    rw [closed] at now
    cases now.2
  exact Claimable.congr kept.hash (kept.messages lease.workerId)
    (s.publishPipelineEvent_keys event).leases

theorem claimable_of_queued
    {event : PipelineEvent}
    {after : Broker}
    (awaiting : Awaiting args task lease.workerId stored none s)
    (owned : OwnedUnder task lease s)
    (awaited : AwaitedBy args event)
    (hash : after.tasks task = stored.resumeQueued event)
    (message : event ∈ after.resumeMessages lease.workerId task)
    (leases : after.leases = s.leases) :
    Claimable task lease after := by
  have sameOwner : after.resumeLeaseOk (after.tasks task) (some lease) = true := by
    have bare : s.tasks task = stored := awaiting.hash
    rw [OwnedUnder, bare] at owned
    simpa [Broker.resumeLeaseOk, Broker.holds, leases, hash, TaskHash.resumeQueued] using owned
  exact ⟨event, message, Broker.claimPipelineResume_queued after awaiting.waits hash awaited
    sameOwner⟩

theorem resumable_queued_iff
    {event cached : PipelineEvent}
    (awaiting : Awaiting args task lease.workerId stored (some event) s)
    (owned : OwnedUnder task lease s)
    (awaited : AwaitedBy args cached)
    (terminal : cached.terminal = true) :
    OwnerResumable args task lease s ↔
      event ∈ s.resumeMessages lease.workerId task ∧
        Broker.matchesWait (s.tasks task) event = true := by
  have closed : (s.tasks task).acceptsResume = false := by
    rw [awaiting.hash]
    exact TaskHash.acceptsResume_resumeQueued event stored
  have idle : (s.resumePipelineIfCached task).1 = s := by
    rcases s.resumePipelineIfCached_cases task with
      idle | ⟨_, _, _, _, _, _, _, _, unqueued, _⟩
    · rw [idle]
    · rw [awaiting.hash] at unqueued
      exact absurd rfl unqueued
  have claimable :
      Claimable task lease s ↔
        event ∈ s.resumeMessages lease.workerId task ∧
          Broker.matchesWait (s.tasks task) event = true := by
    rw [awaiting.claimable_iff owned]
    simp
  rw [OwnerResumable, idle, ← claimable]
  constructor
  · rintro (now | checked | delivered)
    · exact now
    · exact checked
    · exact (claimable_publish_closed closed cached).mp (delivered cached awaited terminal)
  · exact Or.inl

theorem resumable_unqueued_iff
    {cached : PipelineEvent}
    (awaiting : Awaiting args task lease.workerId stored none s)
    (owned : OwnedUnder task lease s)
    (found : s.events args.key = some cached)
    (awaited : AwaitedBy args cached)
    (terminal : cached.terminal = true) :
    OwnerResumable args task lease s ↔ cached.luaTerminal = true ∨ args.attemptId ≠ "" := by
  have bare : s.tasks task = stored := awaiting.hash
  have waits := awaiting.waits
  have nothing : ¬Claimable task lease s := by
    rw [awaiting.claimable_iff owned]
    rintro ⟨_, queued, _⟩
    cases queued
  constructor
  · rintro (now | checked | delivered)
    · exact absurd now nothing
    · rcases s.resumePipelineIfCached_cases task with
        idle | ⟨key, _, event, eventKey, _, _, cachedThere, lua, _⟩
      · rw [idle] at checked
        exact absurd checked nothing
      · rw [bare, waits.eventKey] at eventKey
        cases eventKey
        rw [found] at cachedThere
        cases cachedThere
        exact Or.inl lua
    · refine Or.inr ?_
      intro unnamed
      -- An absent marker reads as the empty attempt: no delivery is accepted.
      have closed : (s.tasks task).acceptsResume = false := by
        simp [bare, TaskHash.acceptsResume, waits.unqueued, waits.attemptId_eq, unnamed]
      exact nothing ((claimable_publish_closed closed cached).mp
        (delivered cached awaited terminal))
  · rintro (lua | named)
    · refine Or.inr (Or.inl ?_)
      obtain ⟨hash, messages, _, leases⟩ :=
        Broker.resumePipelineIfCached_deliveries s waits awaiting.hash
          (List.append_nil _).symm awaiting.member
      have resume : (s.events args.key).filter (·.luaTerminal) = some cached := by
        simp [found, lua]
      rw [resume] at hash messages
      refine awaiting.claimable_of_queued owned awaited hash ?_ leases
      rw [messages]
      simp
    · refine Or.inr (Or.inr ?_)
      intro event eventAwaited eventTerminal
      have delivered := Broker.publishPipelineEvent_deliveries s awaiting.member eventAwaited
      have resume : (s.tasks task).firstResume [event] = some event := by
        rw [bare, waits.firstResume_eq, if_pos named]
        simp [eventTerminal]
      have hash := delivered.hash
      have messages := delivered.messages lease.workerId (by rw [bare]; exact waits.owner)
      rw [resume, bare] at hash
      rw [resume] at messages
      refine awaiting.claimable_of_queued owned eventAwaited hash ?_ delivered.leases
      rw [messages]
      simp

end Awaiting

/-- A resume that is recorded is the cached one or lies in the new owner's inbox, and without a
record one can still be queued. -/
def ResumeSurvives
    (stored : TaskHash)
    (inbox : List PipelineEvent)
    (cached : PipelineEvent) : Prop :=
  match stored.pipeline.resumeQueued with
  | some queued =>
    queued = cached ∨ (queued ∈ inbox ∧ Broker.matchesWait stored queued = true)
  | none => cached.luaTerminal = true ∨ stored.attemptId ≠ ""

theorem Waits.transfer_resumable_iff
    {task : TaskId}
    {oldWorker : WorkerId}
    {cached : PipelineEvent}
    {now : Time}
    {s : Broker}
    (waits : Waits args task s)
    (found : s.events args.key = some cached)
    (terminal : cached.terminal = true)
    (transferred : (s.transferOrphanedTask task oldWorker lease (some cached) now).2 = 1) :
    OwnerResumable args task lease
        (s.transferOrphanedTask task oldWorker lease (some cached) now).1 ↔
      ResumeSurvives (s.tasks task) (s.resumeMessages lease.workerId task) cached := by
  obtain ⟨worker, stored, queued, awaiting⟩ := waits
  obtain ⟨project, sha, pipeline⟩ := awaiting.keyed args.key cached found
  have awaited : AwaitedBy args cached := ⟨project, sha, pipeline⟩
  rcases s.transferOrphanedTask_cases task oldWorker lease (some cached) now with
    ⟨reply, refused, replied⟩ | ⟨_, held, workerTasks, handed⟩
  · rw [replied] at transferred
    exact absurd transferred refused
  rw [handed]
  simp only [awaiting.status_eq, if_true]
  generalize after_eq : Broker.pushInbox _ lease.workerId task .resumePipeline (some cached) = after
  have hash : after.tasks task = Broker.handedOver lease now (s.tasks task) := by
    simp [← after_eq]
  have messages : after.resumeMessages lease.workerId task =
      s.resumeMessages lease.workerId task ++ [cached] := by
    simp [← after_eq, Broker.resumeMessages]
  have newOwner := awaiting.handedOver lease now hash (by simp [← after_eq]) (by simp [← after_eq])
  have owned : OwnedUnder task lease after := by
    have leases : after.leases = s.leases := by simp [← after_eq]
    simpa [OwnedUnder, Broker.resumeLeaseOk, Broker.holds, leases, hash, Broker.handedOver]
      using held
  cases queued with
  | none =>
      rw [ResumeSurvives, awaiting.resumeQueued_eq]
      rw [newOwner.resumable_unqueued_iff owned (by simp [← after_eq, found]) awaited terminal]
      have attempt : (s.tasks task).attemptId = args.attemptId := by
        rw [awaiting.hash]
        exact awaiting.waits.attemptId_eq
      rw [attempt]
  | some event =>
      rw [ResumeSurvives, awaiting.resumeQueued_eq]
      rw [newOwner.resumable_queued_iff owned awaited terminal, messages]
      have identity : ∀ other, Broker.matchesWait (after.tasks task) other =
          Broker.matchesWait (s.tasks task) other := by
        intro other
        rw [hash]
        rfl
      rw [identity, List.mem_append, List.mem_singleton]
      constructor
      · rintro ⟨inInbox | rfl, matches_⟩
        · exact Or.inr ⟨inInbox, matches_⟩
        · exact Or.inl rfl
      · rintro (rfl | ⟨inInbox, matches_⟩)
        · refine ⟨Or.inr rfl, ?_⟩
          have waits := newOwner.waits
          rw [← identity, newOwner.hash]
          simp [Broker.matchesWait, TaskHash.afterResume, TaskHash.resumeQueued, waits.project,
            waits.sha, project, sha, WaitArgs.key]
        · exact ⟨Or.inl inInbox, matches_⟩

/-- In every run a transfer with the cached terminal event leaves the new owner resumable exactly
if the recorded resume survives it. -/
theorem orphan_transfer_iff
    {args : WaitArgs}
    {task : TaskId}
    {oldWorker : WorkerId}
    {lease : MrLease}
    {cached : PipelineEvent}
    {now : Time}
    {start s : Broker}
    (waits : Waits args task start)
    (run : Reaches Broker.step RecoveryOp start s)
    (found : s.events args.key = some cached)
    (terminal : cached.terminal = true)
    (transferred : (s.transferOrphanedTask task oldWorker lease (some cached) now).2 = 1) :
    OwnerResumable args task lease
        (s.transferOrphanedTask task oldWorker lease (some cached) now).1 ↔
      ResumeSurvives (s.tasks task) (s.resumeMessages lease.workerId task) cached := by
  have reached : Waits args task s := run.invariant (Waits args task) Waits.step waits
  exact reached.transfer_resumable_iff found terminal transferred

namespace Sample

def leaseB : MrLease := ⟨mr, workerB, 2⟩

/-- The sample task right after its status change. -/
def suspended : Broker :=
  ((suspendRun "attempt").suspend started).1

/-- The pipeline ends, worker A dies, the webhook comes again, and worker B takes over. -/
def orphaned (redelivered : PipelineEvent) : Broker :=
  [Op.pipeline (.publish (success 7 "t")), .lease (.expire mr), .pipeline (.publish redelivered),
    .task (.recoverDead workerA task 3 6), .lease (.claim mr workerB)].foldl Broker.step suspended

end Sample

open Sample in
theorem suspended_waits : Waits (suspendRun "attempt").args task suspended := by
  have finishes : (suspendRun "attempt").Finishes started workerA :=
    suspendRun_finishes (by decide) (by decide)
  have waiting := finishes.waiting
  refine ⟨workerA, suspended.tasks task, none, waiting.waits, by decide, rfl,
    waiting.member, ?_⟩
  intro key event cached
  cases cached

open Sample in
theorem orphaned_run (redelivered : PipelineEvent) :
    Reaches Broker.step RecoveryOp suspended (orphaned redelivered) := by
  have start : Reaches Broker.step RecoveryOp suspended suspended := Reaches.refl suspended
  have ended := start.snoc _ (RecoveryOp.publish (success 7 "t"))
  have expired := ended.snoc _ (RecoveryOp.lease (.expire mr))
  have again := expired.snoc _ (RecoveryOp.publish redelivered)
  have recovered := again.snoc _ (RecoveryOp.recoverDead workerA task 3 6)
  exact recovered.snoc _ (RecoveryOp.lease (.claim mr workerB))

open Sample in
theorem same_redelivery_resumable :
    OwnerResumable (suspendRun "attempt").args task leaseB
      ((orphaned (success 7 "t")).transferOrphanedTask task workerA leaseB
        (some (success 7 "t")) 7).1 := by
  refine (orphan_transfer_iff suspended_waits (orphaned_run (success 7 "t")) (by decide +kernel)
    (by decide +kernel) (by decide +kernel)).mpr ?_
  have queued : ((orphaned (success 7 "t")).tasks task).pipeline.resumeQueued =
      some (success 7 "t") := by
    decide +kernel
  rw [ResumeSurvives, queued]
  exact Or.inl rfl

open Sample in
/-- A redelivery with another time stamp strands the task on its new owner. -/
theorem changed_redelivery_strands :
    Waits (suspendRun "attempt").args task suspended ∧
      Reaches Broker.step RecoveryOp suspended (orphaned (success 7 "u")) ∧
      (orphaned (success 7 "u")).events (suspendRun "attempt").args.key = some (success 7 "u") ∧
      (success 7 "u").terminal = true ∧
      ((orphaned (success 7 "u")).transferOrphanedTask task workerA leaseB
        (some (success 7 "u")) 7).2 = 1 ∧
      ¬OwnerResumable (suspendRun "attempt").args task leaseB
        ((orphaned (success 7 "u")).transferOrphanedTask task workerA leaseB
          (some (success 7 "u")) 7).1 := by
  have run := orphaned_run (success 7 "u")
  have found : (orphaned (success 7 "u")).events (suspendRun "attempt").args.key =
      some (success 7 "u") := by
    decide +kernel
  have terminal : (success 7 "u").terminal = true := by decide +kernel
  have transferred : ((orphaned (success 7 "u")).transferOrphanedTask task workerA leaseB
      (some (success 7 "u")) 7).2 = 1 := by
    decide +kernel
  refine ⟨suspended_waits, run, found, terminal, transferred, ?_⟩
  have reached := run.invariant _ Waits.step suspended_waits
  rw [reached.transfer_resumable_iff found terminal transferred]
  have queued : ((orphaned (success 7 "u")).tasks task).pipeline.resumeQueued =
      some (success 7 "t") := by
    decide +kernel
  have inbox : (orphaned (success 7 "u")).resumeMessages leaseB.workerId task = [] := by
    decide +kernel
  rw [ResumeSurvives, queued, inbox]
  rintro (same | ⟨inInbox, _⟩)
  · exact absurd same (by decide +kernel)
  · cases inInbox

end MrAgent
