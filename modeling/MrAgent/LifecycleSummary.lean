import MrAgent.BrokerModel
import MrAgent.IntervalMarks

namespace MrAgent

open IntervalMarks

/-!
# The lifecycle summary of a task

`summarize_lifecycle` sorts the events of a task by their time and their id and
matches starts with ends in one pass. The ids are digests, so they order two
events of one moment in no particular way, and an end may come to stand before
the start it belongs to.
-/

/-! ## Events -/

/-- `LifecyclePhase`. -/
inductive LifecyclePhase where
  | created
  | queue
  | sameMrWait
  | context
  | hermes
  | gitPublish
  | pipelineWait
  | postPipeline
  | terminal
  | notification
deriving DecidableEq

/-- The text of a phase. -/
def LifecyclePhase.value : LifecyclePhase → String
  | created => "created"
  | queue => "queue"
  | sameMrWait => "same_mr_wait"
  | context => "context"
  | hermes => "hermes"
  | gitPublish => "git_publish"
  | pipelineWait => "pipeline_wait"
  | postPipeline => "post_pipeline"
  | terminal => "terminal"
  | notification => "notification"

/-- `LifecycleKind`. -/
inductive LifecycleKind where
  | point
  | start
  | stop
deriving DecidableEq

/-- The text of a kind. -/
def LifecycleKind.value : LifecycleKind → String
  | point => "point"
  | start => "start"
  | stop => "end"

/-- `LifecycleEvent` without its metadata. -/
structure LifecycleEvent where
  taskId : String
  phase : LifecyclePhase
  kind : LifecycleKind
  occurredAt : Time
  segmentId : String
  eventId : String
deriving DecidableEq

/-- The segment of an event. -/
def LifecycleEvent.key (event : LifecycleEvent) : LifecyclePhase × String :=
  (event.phase, event.segmentId)

/-- The text whose digest is the id of an event. -/
def lifecycleIdentity
    (taskId : String)
    (phase : LifecyclePhase)
    (segmentId : String)
    (kind : LifecycleKind) : String :=
  taskId ++ "\x1f" ++ phase.value ++ "\x1f" ++ segmentId ++ "\x1f" ++ kind.value

/-- `LifecycleEvent.new`; `digest` is the start of the SHA-256 digest. -/
def LifecycleEvent.new
    (digest : String → String)
    (taskId : String)
    (phase : LifecyclePhase)
    (kind : LifecycleKind)
    (segmentId : String)
    (occurredAt : Time) : LifecycleEvent :=
  let segment := if segmentId = "" then "default" else segmentId
  { taskId := taskId
    phase := phase
    kind := kind
    occurredAt := occurredAt
    segmentId := segment
    eventId := digest (lifecycleIdentity taskId phase segment kind) }

/-! ## `summarize_lifecycle` -/

/-- The sort key of the events: the time and then the id. -/
def LifecycleEvent.before (first second : LifecycleEvent) : Bool :=
  first.occurredAt < second.occurredAt ||
    (first.occurredAt = second.occurredAt && first.eventId ≤ second.eventId)

def orderedEvents (events : List LifecycleEvent) : List LifecycleEvent :=
  events.mergeSort LifecycleEvent.before

/-- The variables of the loop: the open starts in the order of insertion and the totals. -/
structure LifecycleScan where
  starts : List LifecycleEvent
  durations : LifecyclePhase → Time

namespace LifecycleScan

def empty : LifecycleScan where
  starts := []
  durations := fun _ => 0

/-- `starts.get`. -/
def startOf (scan : LifecycleScan) (key : LifecyclePhase × String) : Option LifecycleEvent :=
  scan.starts.find? (·.key = key)

/-- The body of the loop. -/
def step (scan : LifecycleScan) (event : LifecycleEvent) : LifecycleScan :=
  match event.kind with
  | .point => scan
  | .start =>
    if (scan.startOf event.key).isSome then scan
    else { scan with starts := scan.starts ++ [event] }
  | .stop =>
    match scan.startOf event.key with
    | none => scan
    | some start =>
      { starts := scan.starts.filter (·.key ≠ event.key)
        durations := fun phase =>
          if phase = event.phase then
            scan.durations phase +
              (if start.occurredAt ≤ event.occurredAt then event.occurredAt - start.occurredAt
                else 0)
          else scan.durations phase }

end LifecycleScan

def lifecycleScan (events : List LifecycleEvent) : LifecycleScan :=
  (orderedEvents events).foldl LifecycleScan.step LifecycleScan.empty

/-- `max(0, int(value * 1000))`. -/
def milliseconds (value : Time) : Nat :=
  (value * 1000).floor.toNat

/-- `_point_time`. -/
def pointTime
    (events : List LifecycleEvent)
    (phase : LifecyclePhase)
    (kind : LifecycleKind) : Option Time :=
  ((events.filter fun event => event.phase = phase && event.kind = kind).map (·.occurredAt)).max?

/-- The name of a segment in the list of incomplete segments. -/
def segmentName (key : LifecyclePhase × String) : String :=
  key.1.value ++ ":" ++ key.2

/-- `LifecycleSummary`. -/
structure LifecycleSummary where
  processingTotalMs : Option Nat
  deliveryTotalMs : Option Nat
  queueDurationMs : Nat
  sameMrWaitMs : Nat
  contextDurationMs : Nat
  hermesDurationMs : Nat
  gitPublishDurationMs : Nat
  pipelineWaitDurationMs : Nat
  postPipelineDurationMs : Nat
  notificationDurationMs : Nat
  incompleteSegments : List String
deriving DecidableEq

/-- The exact total of a phase. -/
def phaseTotal (events : List LifecycleEvent) (phase : LifecyclePhase) : Time :=
  (lifecycleScan events).durations phase

/-- `summarize_lifecycle`. -/
def summarizeLifecycle (events : List LifecycleEvent) : LifecycleSummary :=
  let created := pointTime (orderedEvents events) .created .point
  let terminal := pointTime (orderedEvents events) .terminal .point
  let notificationEnd := pointTime (orderedEvents events) .notification .stop
  { processingTotalMs :=
      created.bind fun created => terminal.map fun terminal => milliseconds (terminal - created)
    deliveryTotalMs :=
      created.bind fun created =>
        notificationEnd.map fun notificationEnd => milliseconds (notificationEnd - created)
    queueDurationMs := milliseconds (phaseTotal events .queue)
    sameMrWaitMs := milliseconds (phaseTotal events .sameMrWait)
    contextDurationMs := milliseconds (phaseTotal events .context)
    hermesDurationMs := milliseconds (phaseTotal events .hermes)
    gitPublishDurationMs := milliseconds (phaseTotal events .gitPublish)
    pipelineWaitDurationMs := milliseconds (phaseTotal events .pipelineWait)
    postPipelineDurationMs := milliseconds (phaseTotal events .postPipeline)
    notificationDurationMs := milliseconds (phaseTotal events .notification)
    incompleteSegments :=
      ((lifecycleScan events).starts.map fun start => segmentName start.key).mergeSort }

end MrAgent
