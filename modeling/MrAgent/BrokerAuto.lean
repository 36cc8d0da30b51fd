import MrAgent.BrokerTask

namespace MrAgent

/-!
# Automatic workflow scripts

`RECORD_AUTO_COMMAND_COMPLETED_LUA`, `PAUSE_AUTO_FOR_TRIAGE_LUA` and
`RESUME_AUTO_AFTER_TRIAGE_LUA`: an automatic workflow yields its merge request
to a triage repair and is handed back to a worker once that repair is over.
-/

/-- The cursor an automatic workflow stores after each command. -/
structure AutoCursor where
  nextCommandIndex : Nat
  completedCommands : List String
  workflowHeadSha : String
deriving DecidableEq

namespace Broker

/-- `RECORD_AUTO_COMMAND_COMPLETED_LUA`. -/
def recordAutoCommandCompleted
    (s : Broker)
    (task : TaskId)
    (cursor : AutoCursor)
    (lease : MrLease)
    (now : Time) : Broker × Int :=
  if (s.tasks task).status ≠ some .running then (s, 0)
  else if !s.holds lease then (s, -1)
  else
    (s.updTask task fun t =>
        { t with
          auto :=
            { t.auto with
              nextCommandIndex := some cursor.nextCommandIndex
              completedCommands := some cursor.completedCommands
              workflowHeadSha := some cursor.workflowHeadSha }
          updatedAt := some now },
      1)

/--
`PAUSE_AUTO_FOR_TRIAGE_LUA`. All keys are those of the lease's merge request:
the wrapper rejects a lease of another one.
-/
def pauseAutoForTriage
    (s : Broker)
    (task : TaskId)
    (triageTask : TaskId)
    (cursor : AutoCursor)
    (lease : MrLease)
    (now : Time) : Broker × Int :=
  let scope := some lease.mr
  if (s.tasks task).status ≠ some .running then (s, 0)
  else if !s.holds lease then (s, -1)
  else if s.gates scope ≠ some triageTask then (s, 0)
  else if s.pausedAuto scope ≠ none && s.pausedAuto scope ≠ some task then (s, -2)
  else
    let s := s.updTask task fun t =>
      { t with
        status := some .pausedByTriage
        auto :=
          { nextCommandIndex := some cursor.nextCommandIndex
            completedCommands := some cursor.completedCommands
            workflowHeadSha := some cursor.workflowHeadSha
            pausedByTriageTaskId := some triageTask }
        waitKind := some "mr_priority"
        waitIdentity := some lease.mr.redisId
        updatedAt := some now }
    (s.setPausedAuto scope (some task), 1)

/-- `RESUME_AUTO_AFTER_TRIAGE_LUA`. -/
def resumeAutoAfterTriage
    (s : Broker)
    (triageTask : TaskId)
    (lease : MrLease)
    (now : Time) : Broker × Int :=
  let scope := some lease.mr
  if s.gates scope ≠ some triageTask then (s, 0)
  else if !s.holds lease then (s, -1)
  else if !(s.tasks triageTask).terminal then (s, 0)
  else
    match s.pausedAuto scope with
    | none => (s.setGate scope none, 0)
    | some auto =>
      let stored := s.tasks auto
      if stored.status ≠ some .pausedByTriage ||
          stored.auto.pausedByTriageTaskId ≠ some triageTask then (s, 0)
      else
        let s := s.dropOwnerTask stored.workerId auto
        let s := s.restartAuto auto lease.workerId lease.fencingToken now
        ((s.setGate scope none).setPausedAuto scope none, 1)

end Broker

end MrAgent
