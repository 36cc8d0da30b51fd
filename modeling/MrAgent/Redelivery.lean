import MrAgent.CardRevision
import MrAgent.MrSession

namespace MrAgent

open TransitionSystem

/-!
# Redelivered messages

A message that was handled once can be read from the inbox again at any point
of its task's life. `_run_delivery` hands it to the executor as if it were
new. This module follows the executor through its claim, its first transition
and its error handler, as far as the handler touches the task's status, its
manifest and its card.
-/

/-- A message read from a worker's inbox, with the lease of the session. -/
structure Redelivery where
  envelope : TaskEnvelope
  message : SessionMessage
  lease : Option MrLease
  worker : WorkerId
  messageId : Nat

namespace Redelivery

def task (d : Redelivery) : TaskId :=
  d.envelope.taskId

end Redelivery

/-- How a call of the session ends: `str(error)` is what the worker records. -/
inductive Ending where
  | returned
  | raised (error : String)
deriving DecidableEq

/-- Where the processing of a message leads. Only `finished` is the end. -/
inductive Processing where
  | finished (state : Broker) (ending : Ending)
  | executing (state : Broker)
  | canceling (state : Broker)
  | settlingUnitTests (state : Broker)
  | failed (state : Broker)

namespace Processing

def state : Processing → Broker
  | finished state _ | executing state | canceling state | settlingUnitTests state | failed state =>
    state

def ended : Processing → Bool
  | finished .. => true
  | _ => false

end Processing

namespace Broker

variable (s : Broker) (d : Redelivery)

end Broker

/-- The manifest is stored and frozen. -/
def TaskHash.manifestFrozen (task : TaskHash) : Bool :=
  task.repairCommitManifest.any (·.frozen)

/-- The task was not failed, its manifest not frozen and its card not changed. -/
structure Harmless (task : TaskId) (before after : Broker) : Prop where
  status : (after.tasks task).status = some .failed → (before.tasks task).status = some .failed
  manifest : (after.tasks task).manifestFrozen = true → (before.tasks task).manifestFrozen = true
  card : ∀ cardId, before.taskCards task = some cardId → after.cards cardId = before.cards cardId

namespace Redelivery

variable (d : Redelivery) (s : Broker)

end Redelivery

namespace Broker

variable (s : Broker)

end Broker

namespace Harmless

variable {task : TaskId} {s next : Broker}

theorem refl (task : TaskId) (s : Broker) : Harmless task s s :=
  ⟨id, id, fun _ _ => rfl⟩

end Harmless

namespace Broker

variable (s : Broker) (d : Redelivery)

/-! ## When the error handler does nothing -/

end Broker

namespace RedeliverySample

/-- The message with which the sample repair was assigned to worker A. -/
def execute : Redelivery where
  envelope := Sample.envelope Sample.task .prCommand "/repair-pipeline" "key"
  message := .run
  lease := some Sample.leaseA
  worker := Sample.workerA
  messageId := 2

/-- A message that resumes it for pipeline 7. -/
def resume : Redelivery :=
  { execute with message := .resumePipeline (Sample.success 7 "t") }

def notice : NotificationEnvelope := ⟨"notice", "", ""⟩

end RedeliverySample

end MrAgent
