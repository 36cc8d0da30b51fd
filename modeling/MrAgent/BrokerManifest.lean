import Mathlib
import MrAgent.BrokerState

namespace MrAgent

/-!
# Repair commit manifests

`APPEND_REPAIR_COMMIT_LUA` and `FREEZE_REPAIR_MANIFEST_LUA`, the Python checks
made before an append, and `RepairCommitManifest.validate_static`, which the
rollback path runs before it rewrites a branch.
-/

/-- `_full_sha` of the broker: forty lower-case hexadecimal characters. -/
def fullSha (value : String) : Bool :=
  value.toList.length == 40 && value.toList.all fun c => c ∈ "0123456789abcdef".toList

/-- `_valid_sha` of the rollback policy: a full match of `[0-9a-f]{40}`. -/
def validSha (value : String) : Bool :=
  value.toList.length == 40 &&
    value.toList.all fun c => ('0' ≤ c && c ≤ '9') || ('a' ≤ c && c ≤ 'f')

/-- `_valid_branch` of the rollback policy. -/
def validBranch (value : String) : Bool :=
  let cs := value.toList
  !cs.isEmpty && cs == strip cs &&
    !("/".toList.isPrefixOf cs || "refs/".toList.isPrefixOf cs) &&
    !("/".toList.isSuffixOf cs || ".".toList.isSuffixOf cs) &&
    !decide ("//".toList <:+: cs) && !decide ("..".toList <:+: cs) &&
    !decide ("@\x7b".toList <:+: cs) &&
    !cs.any fun c => isSpace c || c.toNat < 32

/-- `_validate_manifest_append_input`; the error is the raised message. -/
def validateManifestAppendInput
    (entry : RepairCommitEntry)
    (baseTreeSha sourceBranch authorizedActorId : String) : Except String Unit :=
  let values := [entry.commitSha, entry.parentSha, entry.treeSha, baseTreeSha]
  if entry.sequence = 0 || !values.all fullSha then
    .error "repair commit identity is invalid"
  else if "" ∈ [entry.effectId, entry.taskMarker, entry.pushedAt, sourceBranch,
      authorizedActorId] then
    .error "repair commit evidence is incomplete"
  else if sourceBranch.toList ≠ strip sourceBranch.toList ||
      "refs/".toList.isPrefixOf sourceBranch.toList ||
      decide ("..".toList <:+: sourceBranch.toList) then
    .error "source branch is not normalized"
  else .ok ()

/-- Failure codes of a static manifest check. -/
inductive RollbackFailureCode where
  | manifestIncomplete
  | commitChainMismatch
deriving DecidableEq

namespace RepairCommitManifest

/-- `final_repair_sha`: the last pushed commit. -/
def finalRepairSha (manifest : RepairCommitManifest) : String :=
  match manifest.entries.getLast? with
  | some entry => entry.commitSha
  | none => ""

/-- The entry loop of `validate_static`. -/
def validateEntries :
    (expectedSequence : Nat) →
    (seenShas : List String) →
    (expectedParent : String) →
    List RepairCommitEntry →
    Except (RollbackFailureCode × String) Unit
  | _, _, _, [] => .ok ()
  | expectedSequence, seenShas, expectedParent, entry :: rest =>
    if entry.sequence ≠ expectedSequence || entry.commitSha ∈ seenShas then
      .error (.commitChainMismatch, "commit sequence is not unique and continuous")
    else if !(validSha entry.commitSha && validSha entry.parentSha && validSha entry.treeSha) then
      .error (.manifestIncomplete, "commit identity is invalid")
    else if "" ∈ [entry.effectId, entry.taskMarker, entry.pushedAt] then
      .error (.manifestIncomplete, "commit evidence is incomplete")
    else if entry.parentSha ≠ expectedParent then
      .error (.commitChainMismatch, "commit parent chain does not match")
    else validateEntries (expectedSequence + 1) (entry.commitSha :: seenShas) entry.commitSha rest

/-- `validate_static`; the error is the failure code with its message. -/
def validateStatic
    (manifest : RepairCommitManifest) : Except (RollbackFailureCode × String) Unit :=
  if manifest.schemaVersion ≠ 1 then
    .error (.manifestIncomplete, "unsupported manifest schema")
  else if "" ∈ [manifest.repairTaskId.text, manifest.projectId, manifest.sourceBranch,
      manifest.authorizedActorId] then
    .error (.manifestIncomplete, "manifest identity is incomplete")
  else if manifest.mrIid = 0 || !validBranch manifest.sourceBranch then
    .error (.manifestIncomplete, "MR identity or source branch is invalid")
  else if !(validSha manifest.baseCommitSha && validSha manifest.baseTreeSha) then
    .error (.manifestIncomplete, "base commit or tree is invalid")
  else if !manifest.frozen || manifest.frozenAt = "" || manifest.entries.isEmpty then
    .error (.manifestIncomplete, "manifest is not frozen and complete")
  else validateEntries 1 [] manifest.baseCommitSha manifest.entries

end RepairCommitManifest

/-- Reply of the two manifest scripts. -/
inductive ManifestReply where
  | refused (code : Int) (message : String)
  | stored (code : Int) (manifest : Option RepairCommitManifest)
  | scriptError
deriving DecidableEq

/-- Arguments of `append_repair_commit`. -/
structure AppendArgs where
  entry : RepairCommitEntry
  baseTreeSha : String
  sourceBranch : String
  authorizedActorId : String
deriving DecidableEq

/-- The command test of the append script, on the task's own envelope. -/
def repairCommand (envelope : TaskEnvelope) : Bool :=
  envelope.kind == .postRepairUt ||
    ["/triage", "/fix-format", "/fix_format", "/repair-pipeline"].any fun command =>
      command.toList.isPrefixOf envelope.command.toList

/-- The manifest that the first append of a task starts from. -/
def freshManifest
    (envelope : TaskEnvelope)
    (mr : MrKey)
    (args : AppendArgs) : RepairCommitManifest where
  repairTaskId := envelope.taskId
  projectId := mr.projectId
  mrIid := mr.iid
  sourceBranch := args.sourceBranch
  baseCommitSha := args.entry.parentSha
  baseTreeSha := args.baseTreeSha
  authorizedActorId := args.authorizedActorId

namespace RepairCommitManifest

/-- The identity comparison of the append script. -/
def sameIdentity
    (manifest : RepairCommitManifest)
    (envelope : TaskEnvelope)
    (mr : MrKey)
    (args : AppendArgs) : Bool :=
  manifest.repairTaskId == envelope.taskId && manifest.projectId == mr.projectId &&
    manifest.mrIid == mr.iid && manifest.sourceBranch == args.sourceBranch &&
    manifest.baseTreeSha == args.baseTreeSha &&
    manifest.authorizedActorId == args.authorizedActorId

/-- The parent the next entry must name: the last commit, or the base. -/
def expectedParent (manifest : RepairCommitManifest) : String :=
  match manifest.entries.getLast? with
  | some last => last.commitSha
  | none => manifest.baseCommitSha

/-- The chain checks of the append script: a replay of the last entry writes nothing, and a new
entry continues the sequence and the parents with a fresh SHA. -/
def extend
    (manifest : RepairCommitManifest)
    (entry : RepairCommitEntry) : ManifestReply :=
  if manifest.entries.getLast? = some entry then .stored 0 (some manifest)
  else if entry.sequence ≠ manifest.entries.length + 1 then
    .refused (-5) "commit sequence is not continuous"
  else if entry.parentSha ≠ manifest.expectedParent then
    .refused (-5) "commit parent does not match"
  else if entry.commitSha ∈ manifest.entries.map (·.commitSha) then
    .refused (-5) "duplicate commit SHA"
  else .stored 1 (some { manifest with entries := manifest.entries ++ [entry] })

end RepairCommitManifest

namespace Broker

/-- The reply `APPEND_REPAIR_COMMIT_LUA` computes before its only write. -/
def appendReply
    (s : Broker)
    (task : TaskId)
    (lease : Option MrLease)
    (args : AppendArgs) : ManifestReply :=
  let stored := s.tasks task
  if !stored.exists_ then .refused (-1) "task missing"
  else if !s.leaseOk lease then .refused (-2) "lost lease"
  else
    match stored.payload with
    | none => .refused (-3) "task is not a repair command"
    | some envelope =>
      if !repairCommand envelope then .refused (-3) "task is not a repair command"
      else
        match stored.repairCommitManifest with
        | none =>
          match envelope.mr with
          | none => .scriptError
          | some mr => (freshManifest envelope mr args).extend args.entry
        | some manifest =>
          if manifest.frozen then .refused (-4) "manifest is frozen"
          else
            match envelope.mr with
            -- A JSON `null` passes `not payload.mr` and then cannot be indexed.
            | none => .scriptError
            | some mr =>
              if !manifest.sameIdentity envelope mr args then
                .refused (-5) "manifest identity changed"
              else manifest.extend args.entry

/-- `APPEND_REPAIR_COMMIT_LUA`. -/
def appendRepairCommitScript
    (s : Broker)
    (task : TaskId)
    (lease : Option MrLease)
    (args : AppendArgs)
    (now : Time) : Broker × ManifestReply :=
  match s.appendReply task lease args with
  | .stored 1 manifest =>
    (s.updTask task fun t =>
        { t with repairCommitManifest := manifest, updatedAt := some now },
      .stored 1 manifest)
  | reply => (s, reply)

/--
`append_repair_commit`: the Python check runs first and a rejected input never
reaches the script.
-/
def appendRepairCommit
    (s : Broker)
    (task : TaskId)
    (lease : Option MrLease)
    (args : AppendArgs)
    (now : Time) : Broker × ManifestReply :=
  match validateManifestAppendInput args.entry args.baseTreeSha args.sourceBranch
      args.authorizedActorId with
  | .error message => (s, .refused (-5) message)
  | .ok () => s.appendRepairCommitScript task lease args now

/-- `FREEZE_REPAIR_MANIFEST_LUA`; `frozenAt` is the caller's ISO timestamp. -/
def freezeRepairCommitManifest
    (s : Broker)
    (task : TaskId)
    (lease : Option MrLease)
    (frozenAt : String)
    (now : Time) : Broker × ManifestReply :=
  let stored := s.tasks task
  if !stored.exists_ then (s, .refused (-1) "task missing")
  else if !s.leaseOk lease then (s, .refused (-2) "lost lease")
  else
    match stored.repairCommitManifest with
    | none => (s, .stored 0 none)
    | some manifest =>
      if manifest.frozen then (s, .stored 0 (some manifest))
      else
        let manifest := { manifest with frozen := true, frozenAt := frozenAt }
        (s.updTask task fun t =>
            { t with repairCommitManifest := some manifest, updatedAt := some now },
          .stored 1 (some manifest))

end Broker

end MrAgent
