import MrAgent.CommitPush

namespace MrAgent

open Interruptible

/-!
# Clones, the remote and the ledger

The world in which the runs of `commit_and_push_tool` for one task take place.
Every worker has its own clone of the source branch; the remote moves this
branch by fast-forward only, and there is one broker. A push may arrive
although its command has failed, and then even after the command has ended.
Other users push their own commits, and the rest of the system uses the
broker.
-/

/--
The objects that Git stores, named by their SHA. `origin` is the attempt for
which the tool has made a commit; a commit without one is somebody else's.
-/
structure Repository where
  graph : CommitGraph String
  tree : String → String
  message : String → String
  diff : String → String
  origin : String → Option PushAttemptIdentity

/-- The clone of a worker: the commit it has checked out and the Diff of its index. -/
structure Clone where
  head : String
  staged : String
  head_sha : fullSha head = true

/-- What all runs share. -/
structure PushWorld (Worker : Type) where
  broker : Broker
  /-- The head of the source branch. -/
  remote : Option String
  /-- Pushes that have been sent and may still arrive. -/
  sent : List String
  clone : Worker → Clone

/-- How `git commit` ends; the commit may be there although the command has failed. -/
inductive CommitAnswer where
  | made (sha : String) (valid : fullSha sha = true) (output : String)
  | failed (output : String)

/-- How `git push` ends. -/
inductive PushAnswer where
  | landed (output : String)
  | pending (output : String)
  | lost (output : String)

/-- What a schedule chooses about a call; an optional text is an error. -/
abbrev PushCall.Answer : PushCall → Type
  | .validateWorkspace => Option (String × String)
  | .validateMemberSubstitutions => Option String
  | .addAll => Except String String
  | .stagedChanges | .stagedDiff | .committedDiff | .log | .revParse _ | .lsRemote _ => Option String
  | .config .. | .status | .now => String
  | .commit .. => CommitAnswer
  | .push _ => PushAnswer
  | .isCancelRequested _ | .assertFence _ | .cardOwner _ | .manifest _ => Unit
  | .claimEffect .. | .updateEffect .. | .completeEffect .. | .appendRepairCommit .. => Time

namespace Repository

variable (repository : Repository)

/-- What `rev-parse` prints in a clone. -/
def revParse (clone : Clone) : Revision → Option String
  | .head => some clone.head
  | .headParent => (repository.graph.parents clone.head).head?
  | .parentOf sha => (repository.graph.parents sha).head?
  | .treeOf sha => some (repository.tree sha)

end Repository

namespace PushWorld

variable {Worker : Type} [DecidableEq Worker]

/-- The clone of one worker changes. -/
def setClone (world : PushWorld Worker) (worker : Worker) (clone : Clone) : PushWorld Worker :=
  { world with clone := Function.update world.clone worker clone }

/-- The source branch moves. -/
def setRemote (world : PushWorld Worker) (head : String) : PushWorld Worker :=
  { world with remote := some head }

/-- A call of a worker, answered by the schedule. -/
def perform
    (repository : Repository)
    (worker : Worker) :
    (call : PushCall) → call.Answer → PushWorld Worker → PushWorld Worker × call.Reply
  | .validateWorkspace, answer, world => (world, answer)
  | .validateMemberSubstitutions, answer, world => (world, answer)
  | .addAll, .error error, world => (world, error)
  | .addAll, .ok staged, world =>
    (world.setClone worker { world.clone worker with staged := staged }, "")
  | .stagedChanges, .some error, world => (world, .error error)
  | .stagedChanges, .none, world => (world, .ok ((world.clone worker).staged ≠ ""))
  | .stagedDiff, answer, world => (world, answer.getD (world.clone worker).staged)
  | .committedDiff, answer, world =>
    (world, answer.getD (repository.diff (world.clone worker).head))
  | .log, answer, world => (world, answer.getD (repository.message (world.clone worker).head))
  | .revParse _, .some error, world => (world, error)
  | .revParse revision, .none, world =>
    (world, (repository.revParse (world.clone worker) revision).getD "ERROR: git rev-parse")
  | .lsRemote _, .some error, world => (world, ("", some error))
  | .lsRemote _, .none, world => (world, (world.remote.getD "", none))
  | .config .., answer, world => (world, answer)
  | .status, answer, world => (world, answer)
  | .now, answer, world => (world, answer)
  | .commit .., .made sha valid output, world =>
    (world.setClone worker { head := sha, staged := "", head_sha := valid }, output)
  | .commit .., .failed output, world => (world, output)
  | .push _, .landed output, world => (world.setRemote (world.clone worker).head, output)
  | .push _, .pending output, world =>
    ({ world with sent := (world.clone worker).head :: world.sent }, output)
  | .push _, .lost output, world => (world, output)
  | .isCancelRequested task, _, world => (world, (world.broker.tasks task).cancelRequested)
  | .assertFence lease, _, world => (world, world.broker.leaseOk lease)
  | .claimEffect key task lease, now, world =>
    let (broker, reply) := world.broker.claimEffect key task lease "{}" now
    ({ world with broker := broker }, reply)
  | .updateEffect key lease metadata, now, world =>
    let (broker, reply) := world.broker.updateEffect key lease metadata now
    ({ world with broker := broker }, reply)
  | .completeEffect key task lease result, now, world =>
    let (broker, reply) := world.broker.completeEffect key task lease result now
    ({ world with broker := broker }, reply)
  | .cardOwner task, _, world =>
    (world, (world.broker.taskCards task).bind fun card => (world.broker.cards card).receiveId)
  | .manifest task, _, world => (world, (world.broker.tasks task).repairCommitManifest)
  | .appendRepairCommit task lease args, now, world =>
    let (broker, reply) := world.broker.appendRepairCommit task lease args now
    ({ world with broker := broker }, reply)

/-- The answers that Git gives. -/
def permits
    (repository : Repository)
    (worker : Worker) :
    (call : PushCall) → call.Answer → PushWorld Worker → Prop
  | .addAll, .error error, _ => isError error = true
  | .stagedDiff, answer, _ | .committedDiff, answer, _ | .log, answer, _
  | .revParse _, answer, _ | .lsRemote _, answer, _ => ∀ error, answer = some error → isError error = true
  | .commit attempt message, .made sha _ _, world =>
    repository.graph.parents sha = [(world.clone worker).head] ∧
      repository.origin sha = some attempt ∧ repository.message sha = message ∧
      repository.diff sha = (world.clone worker).staged
  | .commit .., .failed output, _ => isError output = true
  | .push _, .landed _, world =>
    repository.graph.FastForward world.remote (world.clone worker).head
  | .push _, .pending output, _ => isError output = true
  | .push _, .lost output, _ => isError output = true
  | _, _, _ => True

end PushWorld

/-- What happens around the runs. -/
inductive PushChange (Worker : Type) where
  /-- Another user pushes to the branch. -/
  | foreign (head : String)
  /-- A push that was sent earlier arrives. -/
  | arrive (head : String)
  /-- A worker that is not running the tool clones or updates its workspace. -/
  | prepare (worker : Worker) (clone : Clone)
  /-- Any other use of the broker. -/
  | broker (op : Op)

/-- The effect keys of the tool's attempts in one task. -/
def IsPushKey (task : TaskId) (key : String) : Prop :=
  ∃ (runtime : PushRuntime) (attempt : PushAttemptIdentity),
    runtime.taskId = task ∧ key = effectKey runtime attempt.effectName

/-- The operation leaves the records of the task's pushes alone. -/
def LeavesPushes (task : TaskId) (broker : Broker) (op : Op) : Prop :=
  ∀ key, IsPushKey task key → (broker.step op).effects key = broker.effects key

namespace PushChange

variable {Worker : Type} [DecidableEq Worker]

/-- The world after a change. -/
def apply : PushChange Worker → PushWorld Worker → PushWorld Worker
  | foreign head, world => world.setRemote head
  | arrive head, world => world.setRemote head
  | prepare worker clone, world => world.setClone worker clone
  | broker op, world => { world with broker := world.broker.step op }

/--
The server accepts fast-forwards only. Another user has only commits of the
branch and commits of others to push; a workspace is prepared from the branch.
-/
def Allowed
    (repository : Repository)
    (task : TaskId) :
    PushChange Worker → (Worker → Bool) → PushWorld Worker → Prop
  | foreign head, _, world =>
    repository.graph.FastForward world.remote head ∧
      ∀ commit, repository.graph.Contains (some head) commit →
        repository.graph.Contains world.remote commit ∨ repository.origin commit = none
  | arrive head, _, world => head ∈ world.sent ∧ repository.graph.FastForward world.remote head
  | prepare worker clone, busy, world =>
    busy worker = false ∧ repository.graph.Contains world.remote clone.head
  | broker op, _, world => LeavesPushes task world.broker op

end PushChange

/-- A run of the tool on the source branch, for the task or local. -/
structure TaskRequest (task : TaskId) (branch : String) where
  request : PushRequest
  belongs : ∀ runtime, request.runtime = some runtime → runtime.taskId = task
  onBranch : request.sourceBranch = branch

/-- The runs of the tool for one task, in queue mode or local, on any number of workers. -/
def pushMachine
    (Worker : Type)
    [DecidableEq Worker]
    (env : PushEnv)
    (repository : Repository)
    (task : TaskId)
    (branch : String) :
    Machine Worker PushCall.Reply PushCall.Answer (PushWorld Worker) (TaskRequest task branch)
      PushResult (PushChange Worker) where
  program := fun _ input => commitAndPushTool env input.request
  perform := PushWorld.perform repository
  permits := fun worker _ => PushWorld.permits repository worker
  change := PushChange.apply
  allows := PushChange.Allowed repository task

/-! ## Tests of a schedule -/

namespace PushWorld

variable {Worker : Type}

/-- The commit is the head of the branch or a child of it. -/
def forwards (repository : Repository) (head : Option String) (commit : String) : Bool :=
  match head with
  | none => true
  | some tip => tip = commit || repository.graph.parents commit = [tip]

variable {repository : Repository}

theorem fastForward_of_forwards
    {head : Option String}
    {commit : String}
    (passed : forwards repository head commit = true) :
    repository.graph.FastForward head commit := by
  rintro tip rfl
  simp only [forwards, Bool.or_eq_true, decide_eq_true_eq] at passed
  rcases passed with rfl | child
  · exact Relation.ReflTransGen.refl
  · exact Relation.ReflTransGen.single (by rw [child]; exact List.mem_singleton_self tip)

/-- A test for the answer of a call. -/
def permitted
    (repository : Repository)
    (worker : Worker) :
    (call : PushCall) → call.Answer → PushWorld Worker → Bool
  | .addAll, .error error, _ => isError error
  | .stagedDiff, answer, _ | .committedDiff, answer, _ | .log, answer, _
  | .revParse _, answer, _ | .lsRemote _, answer, _ => answer.all isError
  | .commit attempt message, .made sha _ _, world =>
    repository.graph.parents sha = [(world.clone worker).head] &&
      repository.origin sha = some attempt && repository.message sha = message &&
      repository.diff sha = (world.clone worker).staged
  | .commit .., .failed output, _ => isError output
  | .push _, .landed _, world => forwards repository world.remote (world.clone worker).head
  | .push _, .pending output, _ => isError output
  | .push _, .lost output, _ => isError output
  | _, _, _ => true

theorem permits_of_permitted
    {worker : Worker}
    {call : PushCall}
    {answer : call.Answer}
    {world : PushWorld Worker}
    (passed : permitted repository worker call answer world = true) :
    permits repository worker call answer world := by
  have error : ∀ text : Option String, text.all isError = true →
      ∀ error, text = some error → isError error = true := by
    rintro _ all error rfl
    exact all
  cases call with
  | addAll =>
      cases answer with
      | error text => exact passed
      | ok staged => exact trivial
  | stagedDiff => exact error _ passed
  | committedDiff => exact error _ passed
  | log => exact error _ passed
  | revParse revision => exact error _ passed
  | lsRemote branch => exact error _ passed
  | commit attempt message =>
      cases answer with
      | made sha valid output =>
          simp only [permitted, Bool.and_eq_true, decide_eq_true_eq] at passed
          obtain ⟨⟨⟨parents, origin⟩, text⟩, diff⟩ := passed
          exact ⟨parents, origin, text, diff⟩
      | failed output => exact passed
  | push branch =>
      cases answer with
      | landed output => exact fastForward_of_forwards passed
      | pending output => exact passed
      | lost output => exact passed
  | _ => exact trivial

end PushWorld

end MrAgent
