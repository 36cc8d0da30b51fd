import MrAgent.PipelineWait

namespace MrAgent

open TransitionSystem

/-!
# Which pipeline resumes a task

A task may register several waits before it is resumed. The claim of a resume
compares project and SHA with the latest registration, but not the pipeline,
and a new registration leaves the task in the waiter sets of the older ones.
Runs are observed together with the latest registration of one task, and the
invariant ties the queued resume to it.
-/

/-- A broker with the latest registration of one task. -/
structure ObservedBroker where
  broker : Broker
  latest : Option WaitArgs

namespace ObservedBroker

/-- A registration counts if it did not return a cached event instead. -/
def step (task : TaskId) (o : ObservedBroker) (op : Op) : ObservedBroker where
  broker := o.broker.step op
  latest :=
    match op with
    | .pipeline (.register other args now) =>
      if other = task ∧ (o.broker.registerPipelineWait other args now).2 = none then some args
      else o.latest
    | _ => o.latest

end ObservedBroker

/-- The calls around a wait: all pipeline calls, leases, assignment and status changes. -/
inductive WaitCall : Op → Prop
  | lease (op : LeaseOp) : WaitCall (.lease op)
  | pipeline (op : PipelineOp) : WaitCall (.pipeline op)
  | transition (task : TaskId) (call : TransitionCall) (lease : Option MrLease)
      (fields : TransitionFields) (now : Time) :
      WaitCall (.task (.transition task call lease fields now))
  | assign (task : TaskId) (lease : Option MrLease) (worker : WorkerId) (now : Time) :
      WaitCall (.task (.assign task lease worker now))
  | recoverDead (worker : WorkerId) (task : TaskId) (retryLimit : Nat) (now : Time) :
      WaitCall (.task (.recoverDead worker task retryLimit now))
  | transfer (task : TaskId) (oldWorker : WorkerId) (lease : MrLease)
      (event : Option PipelineEvent) (now : Time) :
      WaitCall (.task (.transfer task oldWorker lease event now))

/--
A registration that names a pipeline is made by a task that is in no other
waiter set of the same project and SHA.
-/
def LeavesOlderWaits (s : Broker) : Op → Prop
  | .pipeline (.register task args _) =>
    ∀ pipelineId, args.pipelineId = some pipelineId → ∀ other, other ≠ some pipelineId →
      task ∉ s.waiters ⟨args.projectId, args.sha, other⟩
  | _ => True

/-- The event is of the named pipeline if it is of the project and SHA at all. -/
def Fits (args : WaitArgs) (event : PipelineEvent) : Prop :=
  event.projectId = args.projectId → event.sha = args.sha →
    ∀ pipelineId, args.pipelineId = some pipelineId → event.pipelineId = pipelineId

/-- The wait fields and waiter sets of a task agree with its latest registration. -/
structure Tracks (task : TaskId) (latest : Option WaitArgs) (s : Broker) : Prop where
  unregistered : latest = none → ∀ key, task ∉ s.waiters key
  eventKey : ∀ key, (s.tasks task).pipeline.eventKey = some key →
    ∃ args, latest = some args ∧ key = args.key
  identity : ∀ args, latest = some args →
    (s.tasks task).pipeline.projectId = some args.projectId ∧
      (s.tasks task).pipeline.sha = some args.sha
  alone : ∀ args pipelineId, latest = some args → args.pipelineId = some pipelineId →
    ∀ other, other ≠ some pipelineId → task ∉ s.waiters ⟨args.projectId, args.sha, other⟩
  queued : ∀ event, (s.tasks task).pipeline.resumeQueued = some event →
    event.terminal = true ∧ ∃ args, latest = some args ∧ Fits args event

namespace Tracks

variable {task : TaskId} {latest : Option WaitArgs} {s after : Broker}

theorem of_less
    (tracks : Tracks task latest s)
    (projectId : (after.tasks task).pipeline.projectId = (s.tasks task).pipeline.projectId)
    (sha : (after.tasks task).pipeline.sha = (s.tasks task).pipeline.sha)
    (eventKey : ∀ key, (after.tasks task).pipeline.eventKey = some key →
      (s.tasks task).pipeline.eventKey = some key)
    (queued : ∀ event, (after.tasks task).pipeline.resumeQueued = some event →
      (s.tasks task).pipeline.resumeQueued = some event)
    (waiters : ∀ key, task ∈ after.waiters key → task ∈ s.waiters key) :
    Tracks task latest after := by
  refine ⟨?_, ?_, ?_, ?_, ?_⟩
  · intro none key member
    exact tracks.unregistered none key (waiters key member)
  · intro key found
    exact tracks.eventKey key (eventKey key found)
  · intro args registered
    rw [projectId, sha]
    exact tracks.identity args registered
  · intro args pipelineId registered named other different member
    exact tracks.alone args pipelineId registered named other different (waiters _ member)
  · intro event found
    exact tracks.queued event (queued event found)

theorem of_same
    (tracks : Tracks task latest s)
    (pipeline : (after.tasks task).pipeline = (s.tasks task).pipeline)
    (waiters : ∀ key, task ∈ after.waiters key → task ∈ s.waiters key) :
    Tracks task latest after := by
  refine tracks.of_less (by rw [pipeline]) (by rw [pipeline]) ?_ ?_ waiters
  · intro key found
    rwa [pipeline] at found
  · intro event found
    rwa [pipeline] at found

theorem of_queued
    {event : PipelineEvent}
    (tracks : Tracks task latest s)
    (hash : after.tasks task = (s.tasks task).resumeQueued event)
    (waiters : after.waiters = s.waiters)
    (terminal : event.terminal = true)
    (fits : ∃ args, latest = some args ∧ Fits args event) :
    Tracks task latest after := by
  refine ⟨?_, ?_, ?_, ?_, ?_⟩
  · rw [waiters]
    exact tracks.unregistered
  · rw [hash]
    exact tracks.eventKey
  · rw [hash]
    exact tracks.identity
  · rw [waiters]
    exact tracks.alone
  · intro other found
    rw [hash] at found
    cases found
    exact ⟨terminal, fits⟩

theorem publish
    (tracks : Tracks task latest s)
    (event : PipelineEvent) :
    Tracks task latest (s.publishPipelineEvent event) := by
  have waiters := (s.publishPipelineEvent_keys event).waiters
  rcases s.publishPipelineEvent_hash event task with same | ⟨terminal, listens, _, hash⟩
  · refine tracks.of_same (by rw [same]) ?_
    intro key member
    rwa [waiters] at member
  · refine tracks.of_queued hash waiters terminal ?_
    cases registered : latest with
    | none =>
        rcases listens with sha | pipeline
        · exact absurd sha (tracks.unregistered registered _)
        · exact absurd pipeline (tracks.unregistered registered _)
    | some args =>
        refine ⟨args, rfl, ?_⟩
        intro project sha pipelineId named
        by_contra different
        -- The event reached the task through a set it should not be in.
        have alone := tracks.alone args pipelineId registered named
        rcases listens with shaSet | pipelineSet
        · refine alone none nofun ?_
          rw [← project, ← sha]
          exact shaSet
        · refine alone (some event.pipelineId) (fun same => different (Option.some.inj same)) ?_
          rw [← project, ← sha]
          exact pipelineSet

theorem resumeCached
    (tracks : Tracks task latest s)
    (keyed : s.EventsKeyed)
    (other : TaskId) :
    Tracks task latest (s.resumePipelineIfCached other).1 := by
  rcases s.resumePipelineIfCached_cases other with
    idle | ⟨key, owner, event, eventKey, _, _, cached, lua, _, queues⟩
  · rw [idle]
    exact tracks
  · rw [queues]
    by_cases same : task = other
    · subst other
      refine tracks.of_queued (by simp) rfl (PipelineEvent.terminal_of_luaTerminal lua) ?_
      obtain ⟨args, registered, rfl⟩ := tracks.eventKey key eventKey
      refine ⟨args, registered, ?_⟩
      intro _ _
      exact (keyed args.key event cached).2.2
    · exact tracks.of_same (by simp [same]) fun _ member => member

theorem register
    (args : WaitArgs)
    (now : Time)
    (leaves : LeavesOlderWaits s (.pipeline (.register task args now))) :
    Tracks task (some args) (s.registered task args now) := by
  have pipeline := s.registered_pipeline task args now
  refine ⟨nofun, ?_, ?_, ?_, ?_⟩
  · intro key found
    rw [pipeline] at found
    cases found
    exact ⟨args, rfl, rfl⟩
  · intro latestArgs same
    cases same
    rw [pipeline]
    exact ⟨rfl, rfl⟩
  · intro latestArgs pipelineId same named other different member
    cases same
    rw [Broker.mem_registered] at member
    rcases member with older | ⟨_, key⟩
    · exact leaves pipelineId named other different older
    · have same : other = args.pipelineId := congrArg WaitKey.pipelineId key
      exact different (same.trans named)
  · intro event found
    rw [pipeline] at found
    cases found

theorem register_other
    {other : TaskId}
    (tracks : Tracks task latest s)
    (different : task ≠ other)
    (args : WaitArgs)
    (now : Time) :
    Tracks task latest (s.registered other args now) := by
  refine tracks.of_same (by rw [s.registered_of_ne other args now different]) ?_
  intro key member
  rw [Broker.mem_registered] at member
  exact member.resolve_right fun here => different here.1

theorem claim
    (tracks : Tracks task latest s)
    (other : TaskId) (event : PipelineEvent) (lease : Option MrLease) (now : Time) :
    Tracks task latest (s.claimPipelineResume other event lease now).1 := by
  rcases s.claimPipelineResume_cases other event lease now with
    ⟨reply, _, refused⟩ | ⟨_, _, _, _, _, accepted⟩
  · rw [refused]
    exact tracks
  · rw [accepted]
    have waiters : ∀ key, task ∈ (s.dropWaiter other).waiters key → task ∈ s.waiters key :=
      fun key member => ((s.mem_dropWaiter other task key).mp member).1
    by_cases same : task = other
    · subst other
      refine tracks.of_less ?_ ?_ ?_ ?_ waiters
      · simp [Broker.claimedResume]
      · simp [Broker.claimedResume]
      · intro key found
        simp [Broker.claimedResume] at found
      · intro queued found
        simp [Broker.claimedResume] at found
    · exact tracks.of_same (by simp [same]) waiters

theorem complete
    (tracks : Tracks task latest s)
    (other : TaskId) (event : PipelineEvent) :
    Tracks task latest (s.completePipelineResume other event).1 := by
  dsimp only [Broker.completePipelineResume]
  split
  · exact tracks
  · split
    · exact tracks
    · have waiters : ∀ key, task ∈ (s.dropWaiter other).waiters key → task ∈ s.waiters key :=
        fun key member => ((s.mem_dropWaiter other task key).mp member).1
      by_cases same : task = other
      · subst other
        refine tracks.of_less ?_ ?_ ?_ ?_ waiters
        · simp
        · simp
        · intro key found
          simp at found
        · intro queued found
          simp at found
      · exact tracks.of_same (by simp [same]) waiters

end Tracks

/-- The invariant of observed runs. -/
structure ObservedInv (task : TaskId) (o : ObservedBroker) : Prop where
  keyed : o.broker.EventsKeyed
  tracks : Tracks task o.latest o.broker

namespace ObservedInv

variable {task : TaskId} {o : ObservedBroker}

theorem of_sameWaits
    {after : Broker}
    (inv : ObservedInv task o)
    (same : Broker.SameWaits o.broker after) :
    ObservedInv task ⟨after, o.latest⟩ :=
  ⟨inv.keyed.of_events same.events,
    inv.tracks.of_same (same.pipeline task) fun _ member => same.waiters ▸ member⟩

theorem register
    (inv : ObservedInv task o)
    (other : TaskId) (args : WaitArgs) (now : Time)
    (leaves : LeavesOlderWaits o.broker (.pipeline (.register other args now))) :
    ObservedInv task (o.step task (.pipeline (.register other args now))) := by
  have written : (o.step task (.pipeline (.register other args now))).broker =
      (o.broker.registerPipelineWait other args now).1 := rfl
  have latest : (o.step task (.pipeline (.register other args now))).latest =
      if other = task ∧ (o.broker.registerPipelineWait other args now).2 = none then some args
      else o.latest := rfl
  rcases o.broker.registerPipelineWait_cases other args now with
    ⟨event, _, cached⟩ | ⟨_, registered⟩
  · rw [cached] at written latest
    simp only [reduceCtorEq, and_false, if_false] at latest
    exact ⟨written ▸ inv.keyed, by rw [written, latest]; exact inv.tracks⟩
  · rw [registered] at written latest
    refine ⟨inv.keyed.of_events (by rw [written]; rfl), ?_⟩
    rw [written, latest]
    by_cases same : other = task
    · subst other
      simp only [and_self, if_true]
      exact Tracks.register args now leaves
    · simp only [same, false_and, if_false]
      exact inv.tracks.register_other (Ne.symm same) args now

theorem pipelineStep
    (inv : ObservedInv task o)
    (op : PipelineOp)
    (leaves : LeavesOlderWaits o.broker (.pipeline op)) :
    ObservedInv task (o.step task (.pipeline op)) := by
  cases op with
  | register other args now =>
      exact inv.register other args now leaves
  | publish event =>
      exact ⟨inv.keyed.publish event, inv.tracks.publish event⟩
  | resumeCached other =>
      refine ⟨inv.keyed.of_events ?_, inv.tracks.resumeCached inv.keyed other⟩
      change (o.broker.resumePipelineIfCached other).1.events = _
      rcases o.broker.resumePipelineIfCached_cases other with
        idle | ⟨_, _, _, _, _, _, _, _, _, queues⟩
      · rw [idle]
      · rw [queues]
        rfl
  | claim other event lease now =>
      refine ⟨inv.keyed.of_events ?_, inv.tracks.claim other event lease now⟩
      change (o.broker.claimPipelineResume other event lease now).1.events = _
      rcases o.broker.claimPipelineResume_cases other event lease now with
        ⟨reply, _, refused⟩ | ⟨_, _, _, _, _, accepted⟩
      · rw [refused]
      · rw [accepted]
        simp
  | complete other event =>
      refine ⟨inv.keyed.of_events ?_, inv.tracks.complete other event⟩
      change (o.broker.completePipelineResume other event).1.events = _
      dsimp only [Broker.completePipelineResume]
      split
      · rfl
      · split
        · rfl
        · simp
  | dropStale other =>
      have frame : (o.broker.dropStaleWait other).tasks = o.broker.tasks ∧
          (o.broker.dropStaleWait other).waiters = o.broker.waiters ∧
          (o.broker.dropStaleWait other).events = o.broker.events := by
        unfold Broker.dropStaleWait
        split <;> exact ⟨rfl, rfl, rfl⟩
      refine ⟨inv.keyed.of_events frame.2.2, inv.tracks.of_same ?_ ?_⟩
      · change ((o.broker.dropStaleWait other).tasks task).pipeline = _
        rw [frame.1]
      · intro key member
        change task ∈ (o.broker.dropStaleWait other).waiters key at member
        rwa [frame.2.1] at member
  | deferFallback other now =>
      exact ⟨inv.keyed, inv.tracks.of_same rfl fun _ member => member⟩

theorem step
    (o : ObservedBroker)
    (op : Op)
    (inv : ObservedInv task o)
    (allowed : WaitCall op ∧ LeavesOlderWaits o.broker op) :
    ObservedInv task (o.step task op) := by
  obtain ⟨call, leaves⟩ := allowed
  cases call with
  | lease op =>
      exact inv.of_sameWaits (o.broker.leaseStep_sameWaits op).1
  | pipeline op =>
      exact inv.pipelineStep op leaves
  | transition other call lease fields now =>
      exact inv.of_sameWaits (o.broker.transitionTask_sameWaits other call.expected call.target
        lease fields now)
  | assign other lease worker now =>
      exact inv.of_sameWaits (o.broker.assignToWorker_sameWaits other lease worker now).1
  | recoverDead worker other retryLimit now =>
      exact inv.of_sameWaits (o.broker.recoverDeadTask_sameWaits worker other retryLimit now).1
  | transfer other oldWorker lease event now =>
      exact inv.of_sameWaits
        (o.broker.transferOrphanedTask_sameWaits other oldWorker lease event now).1

end ObservedInv

/-- The task has not registered any wait yet. -/
structure Unregistered (task : TaskId) (s : Broker) : Prop where
  keyed : s.EventsKeyed
  waiters : ∀ key, task ∉ s.waiters key
  eventKey : (s.tasks task).pipeline.eventKey = none
  resumeQueued : (s.tasks task).pipeline.resumeQueued = none

theorem Unregistered.observed
    {task : TaskId}
    {s : Broker}
    (start : Unregistered task s) :
    ObservedInv task ⟨s, none⟩ := by
  refine ⟨start.keyed, fun _ => start.waiters, ?_, nofun, nofun, ?_⟩
  · intro key found
    rw [start.eventKey] at found
    cases found
  · intro event found
    rw [start.resumeQueued] at found
    cases found

/-- In every run whose registrations leave the older waits of their SHA, a claimed resume is a
terminal event of the pipeline of the latest one. -/
theorem resume_identity
    {task : TaskId}
    {start : Broker}
    {o : ObservedBroker}
    (unregistered : Unregistered task start)
    (run : Reaches (ObservedBroker.step task)
      (fun o op => WaitCall op ∧ LeavesOlderWaits o.broker op) ⟨start, none⟩ o)
    (event : PipelineEvent)
    (lease : Option MrLease)
    (now : Time)
    (claimed : (o.broker.claimPipelineResume task event lease now).2 = .claimed) :
    event.terminal = true ∧
      ∃ args, o.latest = some args ∧
        event.projectId = args.projectId ∧
        event.sha = args.sha ∧
        ∀ pipelineId, args.pipelineId = some pipelineId → event.pipelineId = pipelineId := by
  have inv := run.invariant _ ObservedInv.step unregistered.observed
  obtain ⟨_, _, identity, _, queued⟩ :=
    (o.broker.claimPipelineResume_claimed_iff task event lease now).mp claimed
  obtain ⟨terminal, args, latest, fits⟩ := inv.tracks.queued event queued
  obtain ⟨projectId, sha⟩ := inv.tracks.identity args latest
  have named : event.projectId = args.projectId ∧ event.sha = args.sha := by
    simpa [Broker.matchesWait, projectId, sha] using identity
  exact ⟨terminal, args, latest, named.1, named.2, fits named.1 named.2⟩

namespace Sample

/-- A wait of the sample task for any pipeline of the SHA, or for one of them. -/
def wait (attemptId : String) (pipelineId : Option Nat) : WaitArgs where
  projectId := "group/project"
  sha := "abc"
  attemptId := attemptId
  pipelineId := pipelineId

/-- The sample task registers its waits and suspends, and a pipeline ends. -/
def resumed (waits : List WaitArgs) (event : PipelineEvent) : ObservedBroker :=
  (waits.map fun args => Op.pipeline (.register task args 4)) ++
    [Op.task (.transition task .suspend (some leaseA) {} 5), .pipeline (.publish event)]
  |>.foldl (ObservedBroker.step task) ⟨started, none⟩

end Sample

open Sample in
theorem started_unregistered : Unregistered task started := by
  refine ⟨?_, ?_, by decide, by decide⟩
  · intro key event cached
    cases cached
  · intro key member
    cases member

open Sample in
theorem named_pipeline_resumes :
    let o := resumed [wait "two" (some 7)] (success 7 "t")
    (o.broker.claimPipelineResume task (success 7 "t") (some leaseA) 6).2 = .claimed ∧
      o.latest = some (wait "two" (some 7)) ∧
      (success 7 "t").terminal = true := by
  intro o
  have start : Reaches (ObservedBroker.step task)
      (fun o op => WaitCall op ∧ LeavesOlderWaits o.broker op) ⟨started, none⟩
      ⟨started, none⟩ :=
    Reaches.refl _
  have registered := start.snoc (.pipeline (.register task (wait "two" (some 7)) 4))
    ⟨.pipeline _, fun _ _ _ _ => started_unregistered.waiters _⟩
  have suspended := registered.snoc (.task (.transition task .suspend (some leaseA) {} 5))
    ⟨.transition _ _ _ _ _, trivial⟩
  have ended := suspended.snoc (.pipeline (.publish (success 7 "t"))) ⟨.pipeline _, trivial⟩
  have claimed : (o.broker.claimPipelineResume task (success 7 "t") (some leaseA) 6).2 =
      .claimed := by
    decide +kernel
  obtain ⟨terminal, _⟩ := resume_identity started_unregistered ended _ _ _ claimed
  exact ⟨claimed, by decide +kernel, terminal⟩

open Sample in
/-- A task that first waited for the SHA and then for pipeline 7 is resumed by pipeline 9. -/
theorem older_wait_resumes :
    let o := resumed [wait "one" none, wait "two" (some 7)] (success 9 "t")
    Unregistered task started ∧
      Reaches (ObservedBroker.step task) (fun _ op => WaitCall op) ⟨started, none⟩ o ∧
      (o.broker.claimPipelineResume task (success 9 "t") (some leaseA) 6).2 = .claimed ∧
      o.latest = some (wait "two" (some 7)) ∧
      (success 9 "t").pipelineId ≠ 7 := by
  intro o
  have start : Reaches (ObservedBroker.step task) (fun _ op => WaitCall op) ⟨started, none⟩
      ⟨started, none⟩ :=
    Reaches.refl _
  have first := start.snoc (.pipeline (.register task (wait "one" none) 4)) (.pipeline _)
  have second := first.snoc (.pipeline (.register task (wait "two" (some 7)) 4)) (.pipeline _)
  have suspended := second.snoc (.task (.transition task .suspend (some leaseA) {} 5))
    (.transition _ _ _ _ _)
  have ended := suspended.snoc (.pipeline (.publish (success 9 "t"))) (.pipeline _)
  exact ⟨started_unregistered, ended, by decide +kernel, by decide +kernel, by decide +kernel⟩

end MrAgent
