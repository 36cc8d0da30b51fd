import MrAgent.CommitGraph
import MrAgent.EffectGuard
import MrAgent.InterruptibleProgram
import MrAgent.PushAttempt
import MrAgent.RepairPlan

namespace MrAgent

open Interruptible

/-!
# Committing and pushing

`commit_and_push_tool` of `commit_push.py`, with the helpers it resumes an
interrupted attempt with, `recover_push_attempt`, the synchronous effect guard
and `record_repair_commit_sync`. Every Git command and every broker call is a
call of an interruptible program. A Git command that fails prints a text that
starts with `ERROR:`; an exception that leaves the tool is a raise.
-/

/-- The text is an error of `_run_git`. -/
def isError (text : String) : Bool :=
  "ERROR:".toList.isPrefixOf text.toList

/-- The result object of `_tool_result`; `_facts` repeats the commit for the reader. -/
structure PushResult where
  status : ResultStatus
  changed : Bool
  commitSha : Option String
  sourceBranch : String
  message : String
  errorCode : Option String := none
  retryable : Option Bool := none
  attempt : Option PushAttemptIdentity := none
deriving DecidableEq

/-- The metadata of a commit-push effect, as far as it is read back. -/
structure PushMetadata where
  commitSha : Option String := none
  sourceBranch : Option String := none
  previousRemoteSha : Option String := none
  parentSha : Option String := none
  treeSha : Option String := none
  baseTreeSha : Option String := none
  pushedAt : Option String := none
deriving DecidableEq

/-- SHA-256, and `json` on the two kinds of values that an effect stores. -/
structure PushEnv where
  digest : DigestEnv
  results : JsonCodec PushResult
  metadata : JsonCodec PushMetadata
  metadata_empty : metadata.loads "{}" = {}

/-- `ExecutionRuntime` in queue mode. -/
structure PushRuntime where
  taskId : TaskId
  lease : Option MrLease
deriving DecidableEq

/-- What one run of the tool is given; without a runtime it is a local run. -/
structure PushRequest where
  mrId : Int
  cloned : Bool
  sourceBranch : String
  triggerType : TriggerType
  nativeBackend : Bool
  messages : List Message
  runtime : Option PushRuntime
deriving DecidableEq

/-- The revisions that the tool resolves. -/
inductive Revision where
  | head
  | headParent
  | parentOf (sha : String)
  | treeOf (sha : String)
deriving DecidableEq

/-- The Git commands, broker calls and checks of the tool. -/
inductive PushCall where
  | validateWorkspace
  | validateMemberSubstitutions
  | addAll
  | stagedChanges
  | stagedDiff
  | committedDiff
  | log
  | revParse (revision : Revision)
  | lsRemote (branch : String)
  | config (key value : String)
  | commit (attempt : PushAttemptIdentity) (message : String)
  | push (branch : String)
  | status
  | now
  | isCancelRequested (task : TaskId)
  | assertFence (lease : Option MrLease)
  | claimEffect (key : String) (task : TaskId) (lease : Option MrLease)
  | updateEffect (key : String) (lease : Option MrLease) (metadata : String)
  | completeEffect (key : String) (task : TaskId) (lease : Option MrLease) (result : String)
  | cardOwner (task : TaskId)
  | manifest (task : TaskId)
  | appendRepairCommit (task : TaskId) (lease : Option MrLease) (args : AppendArgs)
deriving DecidableEq

/-- What a call returns; `lsRemote` is `_remote_branch_sha`. -/
abbrev PushCall.Reply : PushCall → Type
  | validateWorkspace => Option (String × String)
  | validateMemberSubstitutions => Option String
  | stagedChanges => Except String Bool
  | lsRemote _ => String × Option String
  | isCancelRequested _ | assertFence _ => Bool
  | claimEffect .. => Broker.EffectReply
  | updateEffect .. | completeEffect .. => Int
  | cardOwner _ => Option String
  | manifest _ => Option RepairCommitManifest
  | appendRepairCommit .. => ManifestReply
  | _ => String

/-- A program over the calls of the tool. -/
abbrev PushProgram (α : Type) : Type :=
  Program PushCall.Reply α

/-- One call. -/
def ask (call : PushCall) : PushProgram call.Reply :=
  Program.perform call

/-! ## Effects -/

/-- `_effect_key`. -/
def effectKey (runtime : PushRuntime) (effectName : String) : String :=
  s!"{runtime.taskId.text}:{effectName}"

/-- `raise_if_canceled`. -/
def raiseIfCanceled (runtime : PushRuntime) : PushProgram Unit := do
  if ← ask (.isCancelRequested runtime.taskId) then
    .raise s!"task {runtime.taskId.text} was canceled"

/-- `assert_fence_sync`. -/
def assertFenceSync (runtime : PushRuntime) : PushProgram Unit := do
  if !(← ask (.assertFence runtime.lease)) then
    .raise "lost lease"

/-- The effect record that a claim returns. -/
structure PushEffect where
  status : EffectStatus
  metadata : PushMetadata
  result : PushResult

/-- `SyncEffectGuard.claim`. -/
def claimPushEffect (env : PushEnv) (runtime : PushRuntime) (effectName : String) :
    PushProgram PushEffect := do
  raiseIfCanceled runtime
  let reply ← ask (.claimEffect (effectKey runtime effectName) runtime.taskId runtime.lease)
  match reply with
  | .lostLease => .raise (effectKey runtime effectName)
  | .record status metadata result =>
    return { status, metadata := env.metadata.loads metadata, result := env.results.result result }

/-- `SyncEffectGuard.record_metadata`. -/
def recordPushMetadata
    (env : PushEnv)
    (runtime : PushRuntime)
    (effectName : String)
    (metadata : PushMetadata) : PushProgram Unit := do
  raiseIfCanceled runtime
  match env.metadata.dumps metadata with
  | none => .raise "metadata is not serializable"
  | some text =>
    let updated ← ask (.updateEffect (effectKey runtime effectName) runtime.lease text)
    if updated = -1 then .raise (effectKey runtime effectName)
    else if updated = 0 then .raise s!"effect is not writable: {effectName}"

/-- `SyncEffectGuard.complete`. -/
def completePushEffect
    (env : PushEnv)
    (runtime : PushRuntime)
    (effectName : String)
    (result : PushResult) : PushProgram Unit := do
  match env.results.dumps result with
  | none => .raise "result is not serializable"
  | some text =>
    let completed ←
      ask (.completeEffect (effectKey runtime effectName) runtime.taskId runtime.lease text)
    if completed = -1 then .raise (effectKey runtime effectName)
    else if completed = 0 then .raise s!"effect does not exist: {effectName}"

/-- `_finish_attempt`: in queue mode the result is also stored with the effect. -/
def finishAttempt
    (env : PushEnv)
    (runtime : Option PushRuntime)
    (attempt : PushAttemptIdentity)
    (result : PushResult) : PushProgram PushResult := do
  let result := { result with attempt := some attempt }
  if let some runtime := runtime then
    completePushEffect env runtime attempt.effectName result
  return result

/-- `_finish_attempt` with a blocked result. -/
def finishBlocked
    (env : PushEnv)
    (runtime : Option PushRuntime)
    (attempt : PushAttemptIdentity)
    (commitSha : Option String)
    (sourceBranch message errorCode : String) : PushProgram PushResult :=
  finishAttempt env runtime attempt
    { status := .blocked, changed := true, commitSha, sourceBranch, message,
      errorCode := some errorCode, retryable := some false }

/-- The blocked result of a remote branch that has moved. -/
def finishRemoteChanged
    (env : PushEnv)
    (runtime : Option PushRuntime)
    (attempt : PushAttemptIdentity)
    (commitSha : Option String)
    (sourceBranch previousSha remoteSha : String) : PushProgram PushResult :=
  finishBlocked env runtime attempt commitSha sourceBranch
    s!"ERROR: 远端分支已从 {previousSha} 变化为 {remoteSha}，拒绝覆盖" "remote_branch_changed"

/-- `_tool_result` of a failed attempt; nothing is stored with the effect. -/
def pushError
    (attempt : PushAttemptIdentity)
    (commitSha : Option String)
    (sourceBranch message : String) : PushResult :=
  { status := .error, changed := true, commitSha, sourceBranch, message, attempt := some attempt }

/-! ## The manifest -/

/-- `resolve_repair_manifest_base_tree`; the error is the raised message. -/
def resolveRepairManifestBaseTree
    (manifest : Option RepairCommitManifest)
    (entry : RepairCommitEntry)
    (parentTreeSha : String) : Except String String :=
  match manifest with
  | none =>
    if entry.sequence ≠ 1 then .error "commit sequence is not continuous" else .ok parentTreeSha
  | some manifest =>
    if entry.sequence < 1 || entry.sequence > manifest.entries.length + 1 then
      .error "commit sequence is not continuous"
    else
      let expected :=
        if entry.sequence > 1 then
          match manifest.entries[entry.sequence - 2]? with
          | some previous => (previous.commitSha, previous.treeSha)
          | none => ("", "")
        else (manifest.baseCommitSha, manifest.baseTreeSha)
      if entry.parentSha ≠ expected.1 then .error "commit parent does not match"
      else if parentTreeSha ≠ expected.2 then .error "commit parent tree does not match"
      else .ok manifest.baseTreeSha

/-- `record_repair_commit_sync`. -/
def recordRepairCommitSync
    (runtime : PushRuntime)
    (entry : RepairCommitEntry)
    (parentTreeSha sourceBranch : String) : PushProgram Unit := do
  assertFenceSync runtime
  let owner := (← ask (.cardOwner runtime.taskId)).getD ""
  if owner = "" then .raise "repair card owner is unavailable"
  else
    let manifest ← ask (.manifest runtime.taskId)
    match resolveRepairManifestBaseTree manifest entry parentTreeSha with
    | .error message => .raise message
    | .ok baseTreeSha =>
      let args : AppendArgs := { entry, baseTreeSha, sourceBranch, authorizedActorId := owner }
      let reply ← ask (.appendRepairCommit runtime.taskId runtime.lease args)
      match reply with
      | .stored _ _ => return ()
      | .refused _ message => .raise message
      | .scriptError => .raise "script error"

/-- The manifest entry of an attempt from complete evidence; `none` is a `KeyError`. -/
def repairCommitEntry
    (env : PushEnv)
    (attempt : PushAttemptIdentity)
    (metadata : PushMetadata) : Option (RepairCommitEntry × String × String) := do
  let commitSha ← metadata.commitSha
  let parentSha ← metadata.parentSha
  let treeSha ← metadata.treeSha
  let pushedAt ← metadata.pushedAt
  let baseTreeSha ← metadata.baseTreeSha
  let sourceBranch ← metadata.sourceBranch
  let entry : RepairCommitEntry :=
    { sequence := attempt.sequence
      commitSha
      parentSha
      treeSha
      effectId := attempt.effectName
      taskMarker := (attempt.marker env.digest).text
      pushedAt }
  return (entry, baseTreeSha, sourceBranch)

/-- `_record_confirmed_repair_commit`; a local run records nothing. -/
def recordConfirmedRepairCommit
    (env : PushEnv)
    (runtime : Option PushRuntime)
    (attempt : PushAttemptIdentity)
    (metadata : PushMetadata) : PushProgram Unit := do
  if let some runtime := runtime then
    match repairCommitEntry env attempt metadata with
    | none => .raise "KeyError"
    | some (entry, parentTreeSha, sourceBranch) =>
      recordRepairCommitSync runtime entry parentTreeSha sourceBranch

/-- `_repair_commit_metadata`; a missing time of the push is the current time. -/
def repairCommitMetadata
    (attempt : PushAttemptIdentity)
    (commitSha sourceBranch pushedAt : String) : PushProgram PushMetadata := do
  let parentSha ← ask (.revParse (.parentOf commitSha))
  let treeSha ← ask (.revParse (.treeOf commitSha))
  let parentTreeSha ← ask (.revParse (.treeOf attempt.baseSha))
  if isError parentSha || isError treeSha || isError parentTreeSha then
    .raise "无法读取修复提交的父提交或 tree"
  else if parentSha ≠ attempt.baseSha then
    .raise s!"修复提交父 SHA 不匹配：expected={attempt.baseSha}, actual={parentSha}"
  else
    let pushedAt ← if pushedAt = "" then ask .now else pure pushedAt
    return { commitSha := some commitSha
             sourceBranch := some sourceBranch
             previousRemoteSha := some attempt.baseSha
             parentSha := some parentSha
             treeSha := some treeSha
             baseTreeSha := some parentTreeSha
             pushedAt := some pushedAt }

/-- The evidence that `_finish_confirmed_push` requires. -/
def PushMetadata.complete (metadata : PushMetadata) : Bool :=
  metadata.commitSha.isSome && metadata.parentSha.isSome && metadata.treeSha.isSome &&
    metadata.baseTreeSha.isSome && metadata.pushedAt.isSome

/-- The evidence of a confirmed push: what the metadata has, or read again and stored. -/
def confirmedEvidence
    (env : PushEnv)
    (runtime : Option PushRuntime)
    (attempt : PushAttemptIdentity)
    (sourceBranch : String)
    (metadata : PushMetadata) : PushProgram PushMetadata := do
  if metadata.complete then return metadata
  else
    let recorded := metadata.commitSha.getD ""
    let commitSha ← if recorded = "" then ask (.revParse .head) else pure recorded
    let evidence ←
      repairCommitMetadata attempt commitSha sourceBranch (metadata.pushedAt.getD "")
    if let some runtime := runtime then
      recordPushMetadata env runtime attempt.effectName evidence
    return evidence

/-- `_finish_confirmed_push`. -/
def finishConfirmedPush
    (env : PushEnv)
    (runtime : Option PushRuntime)
    (attempt : PushAttemptIdentity)
    (sourceBranch : String)
    (metadata : PushMetadata)
    (message : String) : PushProgram PushResult := do
  let evidence ← confirmedEvidence env runtime attempt sourceBranch metadata
  recordConfirmedRepairCommit env runtime attempt evidence
  finishAttempt env runtime attempt
    { status := .success, changed := true, commitSha := evidence.commitSha, sourceBranch, message }

/-! ## Resuming an attempt -/

/-- `_resume_push_attempt` after the recorded commit is known to be the local head. -/
def resumeRecorded
    (env : PushEnv)
    (runtime : PushRuntime)
    (attempt : PushAttemptIdentity)
    (sourceBranch recordedSha : String)
    (metadata : PushMetadata) : PushProgram PushResult := do
  let (remoteSha, remoteError) ← ask (.lsRemote sourceBranch)
  if let some error := remoteError then
    return pushError attempt (some recordedSha) sourceBranch error
  else if remoteSha = recordedSha then
    finishConfirmedPush env (some runtime) attempt sourceBranch
      { metadata with commitSha := some recordedSha }
      s!"OK: push already completed, commit={recordedSha}"
  else
    let stored := metadata.previousRemoteSha.getD ""
    let previousSha := if stored = "" then attempt.baseSha else stored
    if remoteSha ≠ previousSha then
      finishRemoteChanged env (some runtime) attempt (some recordedSha) sourceBranch previousSha
        remoteSha
    else
      assertFenceSync runtime
      let pushResult ← ask (.push sourceBranch)
      let (remoteSha, remoteError) ← ask (.lsRemote sourceBranch)
      if remoteSha = recordedSha then
        finishConfirmedPush env (some runtime) attempt sourceBranch
          { metadata with commitSha := some recordedSha }
          s!"OK: pushed to {sourceBranch}, commit={recordedSha}"
      else if remoteError.isNone && remoteSha ≠ previousSha then
        finishRemoteChanged env (some runtime) attempt (some recordedSha) sourceBranch previousSha
          remoteSha
      else
        return pushError attempt (some recordedSha) sourceBranch
          (if isError pushResult then pushResult else "ERROR: push 后远端 SHA 未更新")

/-- `_resume_push_attempt`. -/
def resumePushAttempt
    (env : PushEnv)
    (runtime : PushRuntime)
    (attempt : PushAttemptIdentity)
    (sourceBranch : String)
    (metadata : PushMetadata) : PushProgram PushResult := do
  let recordedSha := metadata.commitSha.getD ""
  let storedBranch := metadata.sourceBranch.getD ""
  if (if storedBranch = "" then sourceBranch else storedBranch) ≠ sourceBranch then
    finishBlocked env (some runtime) attempt (if recordedSha = "" then none else some recordedSha)
      sourceBranch "ERROR: 已记录的 push 目标分支与当前分支不一致，拒绝继续" "push_target_mismatch"
  else
    let localSha ← ask (.revParse .head)
    if recordedSha = "" then
      let metadata : PushMetadata :=
        { commitSha := some localSha
          sourceBranch := some sourceBranch
          previousRemoteSha := some attempt.baseSha }
      recordPushMetadata env runtime attempt.effectName metadata
      resumeRecorded env runtime attempt sourceBranch localSha metadata
    else if localSha ≠ recordedSha then
      finishBlocked env (some runtime) attempt (some recordedSha) sourceBranch
        s!"ERROR: 本地 HEAD {localSha} 与待恢复 commit {recordedSha} 不一致，拒绝生成第二个 commit"
        "commit_recovery_mismatch"
    else resumeRecorded env runtime attempt sourceBranch recordedSha metadata

/-- The answer of the tool to an effect that is completed: its commit is recorded again. -/
def replayCompleted
    (env : PushEnv)
    (runtime : PushRuntime)
    (attempt : PushAttemptIdentity)
    (effect : PushEffect) : PushProgram PushResult := do
  let completedSha := effect.result.commitSha.getD ""
  if completedSha ≠ "" && effect.metadata.pushedAt.getD "" ≠ "" then
    recordConfirmedRepairCommit env (some runtime) attempt
      { effect.metadata with commitSha := some completedSha }
  return effect.result

/-! ## The tool -/

/-- The search for a marker of a task at one place of a message: its number and its text. -/
def markerAt (taskId : String) (text : List Char) : Option (Nat × List Char) :=
  let opening := s!"[pr-agent-task:{taskId}:push-attempt:".toList
  if !opening.isPrefixOf text then none
  else
    let digits := (text.drop opening.length).takeWhile Char.isDigit
    let rest := (text.drop opening.length).drop digits.length
    let digest := (rest.drop 1).take 20
    let hex := digest.all fun c => c.isDigit || ('a' ≤ c && c ≤ 'f')
    if digits ≠ [] && rest.head? = some ':' && digest.length = 20 && hex &&
        (rest.drop 21).head? = some ']' then
      some (digits.foldl (fun value c => 10 * value + (c.toNat - 48)) 0,
        text.take (opening.length + digits.length + 22))
    else none

/-- `pattern.search(message)`. -/
def findMarker (taskId : String) : List Char → Option (Nat × List Char)
  | [] => none
  | c :: rest =>
    match markerAt taskId (c :: rest) with
    | some found => some found
    | none => findMarker taskId rest

/-- The ids of the attempts that the conversation has seen succeed. -/
def completedIds (previousPushes : List ToolResult) : List String :=
  (previousPushes.filter fun push =>
    push.status = .success && push.changed && push.attemptId ≠ "").map (·.attemptId)

/-- `recover_push_attempt`. -/
def recoverPushAttempt
    (env : PushEnv)
    (runtime : PushRuntime)
    (previousPushes : List ToolResult) : PushProgram (Option PushAttemptIdentity) := do
  let message ← ask .log
  if message = "" || isError message then return none
  else
    match findMarker runtime.taskId.text message.toList with
    | none => return none
    | some (sequence, marker) =>
      let headSha ← ask (.revParse .head)
      let baseSha ← ask (.revParse .headParent)
      let committedDiff ← ask .committedDiff
      if isError headSha || isError baseSha || isError committedDiff then return none
      else
        let identity : PushAttemptIdentity :=
          { taskId := runtime.taskId.text
            sequence
            baseSha := String.ofList (strip baseSha.toList)
            diffDigest := env.digest.digestDiff committedDiff.toByteArray }
        if identity.attemptId ∈ completedIds previousPushes ||
            (identity.marker env.digest).text.toList ≠ marker then return none
        else return some identity

/-- `build_push_attempt`; the error is the text of the failed command. -/
def buildStagedAttempt
    (env : PushEnv)
    (taskId : String)
    (previousPushes : List ToolResult) : PushProgram (Except String PushAttemptIdentity) := do
  let baseSha ← ask (.revParse .head)
  if isError baseSha then return .error baseSha
  else
    let stagedDiff ← ask .stagedDiff
    if isError stagedDiff then return .error stagedDiff
    else
      return .ok
        { taskId
          sequence := nextSequence previousPushes
          baseSha := String.ofList (strip baseSha.toList)
          diffDigest := env.digest.digestDiff stagedDiff.toByteArray }

/-- The commit message of an attempt. -/
def commitMessage (env : PushEnv) (mrId : Int) (attempt : PushAttemptIdentity) : String :=
  s!"[UT Agent] MR !{mrId}: 自动代码变更\n\n{(attempt.marker env.digest).text}"

/-- The text occurs in another one. -/
def occursIn (text whole : String) : Bool :=
  decide (text.toList <:+: whole.toList)

/-- The end of a new attempt: the commit is pushed and the remote branch is read again. -/
def pushCommitted
    (env : PushEnv)
    (runtime : Option PushRuntime)
    (attempt : PushAttemptIdentity)
    (sourceBranch previousSha commitHash : String)
    (evidence : PushMetadata) : PushProgram PushResult := do
  let ret ← ask (.push sourceBranch)
  if isError ret then
    if runtime.isNone then return pushError attempt (some commitHash) sourceBranch ret
    else
      let (remoteSha, remoteError) ← ask (.lsRemote sourceBranch)
      if remoteSha = commitHash then
        finishConfirmedPush env runtime attempt sourceBranch evidence
          s!"OK: push already completed, commit={commitHash}"
      else if remoteError.isNone && previousSha ≠ "" && remoteSha ≠ previousSha then
        finishRemoteChanged env runtime attempt (some commitHash) sourceBranch previousSha remoteSha
      else return pushError attempt (some commitHash) sourceBranch ret
  else
    let (remoteSha, remoteError) ← ask (.lsRemote sourceBranch)
    if remoteSha ≠ commitHash then
      if remoteError.isNone && remoteSha ≠ previousSha then
        finishRemoteChanged env runtime attempt (some commitHash) sourceBranch previousSha remoteSha
      else
        return pushError attempt (some commitHash) sourceBranch
          (remoteError.getD "ERROR: push 后远端 SHA 未更新")
    else
      let worktreeStatus ← ask .status
      if isError worktreeStatus then
        return pushError attempt (some commitHash) sourceBranch worktreeStatus
      else if strip worktreeStatus.toList ≠ [] then
        return pushError attempt (some commitHash) sourceBranch
          "ERROR: push 后工作区仍有未提交变更"
      else
        finishConfirmedPush env runtime attempt sourceBranch evidence
          s!"OK: pushed to {sourceBranch}, commit={commitHash}"

/-- The evidence that a new attempt stores before it pushes. -/
def commitEvidence
    (env : PushEnv)
    (runtime : Option PushRuntime)
    (attempt : PushAttemptIdentity)
    (commitHash sourceBranch : String) : PushProgram PushMetadata := do
  match runtime with
  | none => return { commitSha := some commitHash }
  | some runtime =>
    let evidence ← repairCommitMetadata attempt commitHash sourceBranch ""
    recordPushMetadata env runtime attempt.effectName evidence
    assertFenceSync runtime
    return evidence

/-- A new attempt makes its commit. -/
def commitStaged
    (env : PushEnv)
    (runtime : Option PushRuntime)
    (attempt : PushAttemptIdentity)
    (mrId : Int)
    (sourceBranch previousSha : String) : PushProgram PushResult := do
  let ret ← ask (.commit attempt (commitMessage env mrId attempt))
  if isError ret then
    if occursIn "nothing to commit" ret then
      return { status := .noChanges, changed := false, commitSha := none, sourceBranch,
               message := "OK: 无新变更需要提交", attempt := some attempt }
    else return pushError attempt none sourceBranch ret
  else
    let commitHash ← ask (.revParse .head)
    if isError commitHash || commitHash = attempt.baseSha then
      finishBlocked env runtime attempt none sourceBranch
        s!"ERROR: commit 后未生成新 SHA: {commitHash}" "commit_recovery_mismatch"
    else
      let evidence ← commitEvidence env runtime attempt commitHash sourceBranch
      pushCommitted env runtime attempt sourceBranch previousSha commitHash evidence

/-- The configuration and the fence check between the metadata and the commit. -/
def configureAndCommit
    (env : PushEnv)
    (runtime : Option PushRuntime)
    (attempt : PushAttemptIdentity)
    (mrId : Int)
    (sourceBranch previousSha : String) : PushProgram PushResult := do
  let name ← ask (.config "user.name" "UT Agent")
  if isError name then return pushError attempt none sourceBranch name
  else
    let email ← ask (.config "user.email" "ut-agent@noreply.local")
    if isError email then return pushError attempt none sourceBranch email
    else
      if let some runtime := runtime then assertFenceSync runtime
      commitStaged env runtime attempt mrId sourceBranch previousSha

/-- An attempt that has no commit yet. -/
def startAttempt
    (env : PushEnv)
    (runtime : Option PushRuntime)
    (attempt : PushAttemptIdentity)
    (mrId : Int)
    (sourceBranch : String) : PushProgram PushResult := do
  let localSha ← ask (.revParse .head)
  if localSha ≠ attempt.baseSha then
    finishBlocked env runtime attempt none sourceBranch
      s!"ERROR: 本地 HEAD 已从 {attempt.baseSha} 变化为 {localSha}，拒绝提交"
      "commit_recovery_mismatch"
  else
    let (previousSha, remoteError) ← ask (.lsRemote sourceBranch)
    if let some error := remoteError then return pushError attempt none sourceBranch error
    else if previousSha ≠ attempt.baseSha then
      finishRemoteChanged env runtime attempt none sourceBranch attempt.baseSha previousSha
    else
      if let some runtime := runtime then
        recordPushMetadata env runtime attempt.effectName
          { sourceBranch := some sourceBranch, previousRemoteSha := some previousSha }
      configureAndCommit env runtime attempt mrId sourceBranch previousSha

/-- The attempt that the index holds: replayed, resumed or started. -/
def publishAttempt
    (env : PushEnv)
    (runtime : Option PushRuntime)
    (attempt : PushAttemptIdentity)
    (mrId : Int)
    (sourceBranch : String) : PushProgram PushResult := do
  match runtime with
  | none => startAttempt env none attempt mrId sourceBranch
  | some runtime =>
    let effect ← claimPushEffect env runtime attempt.effectName
    if effect.status = .completed then replayCompleted env runtime attempt effect
    else if effect.metadata.commitSha.getD "" ≠ "" then
      resumePushAttempt env runtime attempt sourceBranch effect.metadata
    else startAttempt env (some runtime) attempt mrId sourceBranch

/-- Nothing is staged: the attempt of the local head, if it has one, is taken up again. -/
def recoverAttempt
    (env : PushEnv)
    (runtime : Option PushRuntime)
    (previousPushes : List ToolResult)
    (sourceBranch : String) : PushProgram PushResult := do
  let noChanges : PushResult :=
    { status := .noChanges, changed := false, commitSha := none, sourceBranch,
      message := "OK: 无新变更需要提交" }
  match runtime with
  | none => return noChanges
  | some runtime =>
    let recovered ← recoverPushAttempt env runtime previousPushes
    match recovered with
    | none => return noChanges
    | some attempt =>
      let effect ← claimPushEffect env runtime attempt.effectName
      if effect.status = .completed then replayCompleted env runtime attempt effect
      else resumePushAttempt env runtime attempt sourceBranch effect.metadata

/-- `_native_commit_decision`. -/
def nativeCommitDecision (request : PushRequest) : Option NativeCommitDecision :=
  if request.triggerType = .pipelineFailed && request.nativeBackend then
    some (evaluateNativeCommit (buildExecutionLedger request.messages).toolAttempts)
  else none

/-- The message of a commit that the native checks do not let through. -/
def nativeMessage (decision : NativeCommitDecision) : String :=
  if !decision.allowed then s!"ERROR: {decision.message}"
  else "ERROR: 最终暂存 Diff 与已验证 Diff 不一致，请重新检查并验证。"

/-- A result without an attempt. -/
def plainResult
    (status : ResultStatus)
    (changed : Bool)
    (sourceBranch message : String) : PushResult :=
  { status, changed, commitSha := none, sourceBranch, message }

/-- The tool after the index has been read. -/
def commitStagedChanges (env : PushEnv) (request : PushRequest) : PushProgram PushResult := do
  let previousPushes := (buildExecutionLedger request.messages).pushes
  let sourceBranch := request.sourceBranch
  let staged ← ask .stagedChanges
  match staged with
  | .error error => return plainResult .error false sourceBranch error
  | .ok false => recoverAttempt env request.runtime previousPushes sourceBranch
  | .ok true =>
    let taskId :=
      match request.runtime with
      | some runtime => runtime.taskId.text
      | none => s!"local-mr-{request.mrId}"
    let built ← buildStagedAttempt env taskId previousPushes
    match built with
    | .error error => return plainResult .error false sourceBranch s!"ERROR: {error}"
    | .ok attempt =>
      match nativeCommitDecision request with
      | none => publishAttempt env request.runtime attempt request.mrId sourceBranch
      | some decision =>
        match digestCheck (some attempt) (some decision) with
        | .blocked errorCode =>
          return { status := .blocked, changed := true, commitSha := none, sourceBranch,
                   message := nativeMessage decision, errorCode := some errorCode,
                   retryable := some true, attempt := some attempt }
        | _ => publishAttempt env request.runtime attempt request.mrId sourceBranch

/-- The tool after its first look for a cancellation. -/
def checkAndPush (env : PushEnv) (request : PushRequest) : PushProgram PushResult := do
  let sourceBranch := request.sourceBranch
  if !request.cloned then
    return plainResult .error false sourceBranch
      s!"ERROR: MR !{request.mrId} 仓库未克隆，请先调用 clone_source_branch_tool"
  else if sourceBranch = "" then
    return plainResult .error false sourceBranch "ERROR: 无 source_branch"
  else
    let invalid ← ask .validateWorkspace
    if let some (errorCode, message) := invalid then
      return { plainResult .blocked false sourceBranch message with
        errorCode := some errorCode, retryable := some false }
    else
      let unsafeReason ←
        if request.triggerType = .pipelineFailed then ask .validateMemberSubstitutions
        else pure none
      if let some reason := unsafeReason then
        return { plainResult .blocked true sourceBranch
            s!"ERROR: {reason} 请先调用 discard_workspace_tool。" with
          errorCode := some "unsupported_member_substitution", retryable := some false }
      else
        let ret ← ask .addAll
        if isError ret then return plainResult .error false sourceBranch ret
        else commitStagedChanges env request

/-- `commit_and_push_tool`. -/
def commitAndPushTool (env : PushEnv) (request : PushRequest) : PushProgram PushResult := do
  if let some runtime := request.runtime then raiseIfCanceled runtime
  checkAndPush env request

end MrAgent
