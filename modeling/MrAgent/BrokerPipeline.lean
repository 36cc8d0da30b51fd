import MrAgent.BrokerTask

namespace MrAgent

/-!
# Pipeline wait scripts

A task waits for a pipeline in three atomic steps: it registers in a waiter
set, changes its status, and looks at the event cache once more. Webhooks are
published at any moment. A queued resume message is recorded in the task's
resume markers, and only the message that matches them is accepted.
-/

/-- `PipelineResumeClaim`. -/
inductive PipelineResumeClaim where
  | claimed
  | duplicate
  | stale
  | lostLease
deriving DecidableEq

/-- Arguments of `register_pipeline_wait`. -/
structure WaitArgs where
  projectId : String
  sha : String
  attemptId : String := ""
  pipelineId : Option Nat := none
deriving DecidableEq

/-- The event key and waiter set a registration uses. -/
def WaitArgs.key (args : WaitArgs) : WaitKey :=
  ⟨args.projectId, args.sha, args.pipelineId⟩

namespace PipelineEvent

/-- The key of the latest event of a project and SHA. -/
def shaKey (event : PipelineEvent) : WaitKey :=
  ⟨event.projectId, event.sha, none⟩

/-- The key of the latest event of one pipeline. -/
def pipelineKey (event : PipelineEvent) : WaitKey :=
  ⟨event.projectId, event.sha, some event.pipelineId⟩

end PipelineEvent

namespace TaskHash

/-- `pipeline_attempt_id`, empty when absent. -/
def attemptId (task : TaskHash) : String :=
  task.pipeline.attemptId.getD ""

end TaskHash

namespace Broker

/-- The registration writes of `REGISTER_PIPELINE_WAIT_LUA` on the task hash. -/
def registeredPipeline (args : WaitArgs) (now : Time) (fields : PipelineFields) :
    PipelineFields :=
  { fields with
    projectId := some args.projectId
    sha := some args.sha
    waitRegisteredAt := some now
    eventKey := some args.key
    waiterKey := some args.key
    attemptId := some args.attemptId
    pipelineId := args.pipelineId
    resumeQueued := none
    resumeQueuedAttemptId := none
    resumeClaimedAttemptId := none
    resumeClaimedEvent := none }

/-- `REGISTER_PIPELINE_WAIT_LUA`: a cached terminal event is returned instead. -/
def registerPipelineWait
    (s : Broker)
    (task : TaskId)
    (args : WaitArgs)
    (now : Time) : Broker × Option PipelineEvent :=
  match (s.events args.key).filter (·.luaTerminal) with
  | some cached => (s, some cached)
  | none =>
    let s := s.addWaiter args.key task
    let s := s.updTask task fun t =>
      { t with pipeline := registeredPipeline args now t.pipeline }
    (s.setPipelineWaiting task (some now), none)

/-- Queue a resume message and record it in the task's markers. -/
def queueResume
    (s : Broker)
    (task : TaskId)
    (worker : WorkerId)
    (event : PipelineEvent) : Broker :=
  let attempt := (s.tasks task).attemptId
  let s := s.pushInbox worker task .resumePipeline (some event)
  s.updTask task fun t =>
    { t with
      pipeline :=
        { t.pipeline with
          resumeQueued := some event
          resumeQueuedAttemptId := some attempt } }

/--
The body of the publish loop for one waiter. An absent queued attempt reads as
the empty string here.
-/
def publishTo (event : PipelineEvent) (s : Broker) (task : TaskId) : Broker :=
  let stored := s.tasks task
  match stored.workerId with
  | none => s
  | some worker =>
    if stored.status = some .waitingPipeline &&
        stored.pipeline.resumeQueuedAttemptId.getD "" ≠ stored.attemptId then
      s.queueResume task worker event
    else s

/--
`PUBLISH_PIPELINE_EVENT_LUA`. The script visits the union of two waiter sets
in an unspecified order; the model visits each member once.
-/
def publishPipelineEvent (s : Broker) (event : PipelineEvent) : Broker :=
  let s := s.setEvent event.shaKey event
  let s := s.setEvent event.pipelineKey event
  if !event.terminal then s
  else (s.waiters event.shaKey ++ s.waiters event.pipelineKey).dedup.foldl (publishTo event) s

/--
`RESUME_CACHED_PIPELINE_LUA`. Here an absent queued attempt differs from every
attempt, the empty one included.
-/
def resumePipelineIfCached (s : Broker) (task : TaskId) : Broker × Int :=
  let stored := s.tasks task
  match stored.pipeline.eventKey, stored.pipeline.waiterKey, stored.workerId with
  | some eventKey, some waiterKey, some worker =>
    if stored.status ≠ some .waitingPipeline then (s, 0)
    else if task ∉ s.waiters waiterKey then (s, 0)
    else
      match (s.events eventKey).filter (·.luaTerminal) with
      | none => (s, 0)
      | some event =>
        if stored.pipeline.resumeQueuedAttemptId = some stored.attemptId then (s, 0)
        else (s.queueResume task worker event, 1)
  | _, _, _ => (s, 0)

/-- The event names the project and SHA of the task's registration. -/
def matchesWait (stored : TaskHash) (event : PipelineEvent) : Bool :=
  event.projectId == stored.pipeline.projectId.getD "" &&
    event.sha == stored.pipeline.sha.getD ""

/-- The writes of a successful `CLAIM_PIPELINE_RESUME_LUA` on the task hash. -/
def claimedResume (event : PipelineEvent) (now : Time) (t : TaskHash) : TaskHash :=
  { t with
    status := some .running
    heartbeatAt := some now
    updatedAt := some now
    pipeline :=
      { t.pipeline with
        resumeClaimedAttemptId := some t.attemptId
        resumeClaimedEvent := some event
        eventKey := none
        waiterKey := none
        waitRegisteredAt := none
        resumeQueued := none
        resumeQueuedAttemptId := none }
    delivery := {} }

/-- The lease check of the claim: live lease and task owner must both match. -/
def resumeLeaseOk (s : Broker) (stored : TaskHash) (lease : Option MrLease) : Bool :=
  match lease with
  | some held =>
    s.holds held && stored.workerId == some held.workerId &&
      stored.fencingToken == some held.fencingToken
  | none => true

/-- `CLAIM_PIPELINE_RESUME_LUA`. -/
def claimPipelineResume
    (s : Broker)
    (task : TaskId)
    (event : PipelineEvent)
    (lease : Option MrLease)
    (now : Time) : Broker × PipelineResumeClaim :=
  let stored := s.tasks task
  if stored.status ≠ some .waitingPipeline then
    let claimed := stored.pipeline.resumeClaimedAttemptId.getD ""
    if claimed ≠ "" && claimed = stored.attemptId && matchesWait stored event then
      (s, .duplicate)
    else (s, .stale)
  else if !s.resumeLeaseOk stored lease then (s, .lostLease)
  else if !matchesWait stored event then (s, .stale)
  else if stored.pipeline.resumeQueuedAttemptId.getD "" ≠ stored.attemptId ||
      stored.pipeline.resumeQueued ≠ some event then (s, .stale)
  else
    let s := s.dropWaiter task
    let s := s.setPipelineWaiting task none
    (s.updTask task (claimedResume event now), .claimed)

/-- `COMPLETE_PIPELINE_RESUME_LUA`. -/
def completePipelineResume
    (s : Broker)
    (task : TaskId)
    (event : PipelineEvent) : Broker × Int :=
  let stored := s.tasks task
  if stored.status = none || stored.status = some .waitingPipeline then (s, 0)
  else if stored.pipeline.resumeQueued ≠ none &&
      stored.pipeline.resumeQueued ≠ some event then (s, -1)
  else
    let s := s.dropWaiter task
    let s := s.setPipelineWaiting task none
    (s.updTask task fun t =>
        { t with
          pipeline :=
            { t.pipeline with
              eventKey := none
              waiterKey := none
              waitRegisteredAt := none
              resumeQueued := none }
          delivery := {} },
      1)

/-- `list_stale_pipeline_waits`: an entry of the index that is not waiting is dropped. -/
def dropStaleWait (s : Broker) (task : TaskId) : Broker :=
  if (s.tasks task).status ≠ some .waitingPipeline then s.setPipelineWaiting task none else s

/-- `defer_pipeline_fallback`. -/
def deferPipelineFallback (s : Broker) (task : TaskId) (now : Time) : Broker :=
  s.setPipelineWaiting task (some now)

end Broker

end MrAgent
