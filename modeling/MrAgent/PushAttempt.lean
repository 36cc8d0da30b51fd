import MrAgent.NativeRepairState

namespace MrAgent

/-!
# Identities of push attempts

`push_attempt.py`, and the wrapper through which `commit_push.py` runs Git. An
attempt is named by its task, a sequence number counted from the conversation,
the commit it starts from and the digest of the staged Diff. The wrapper reads
Git's output as text: it decodes UTF-8, translates line ends and strips white
space.
-/

/-- SHA-256: the identity of Diff bytes, and the short digest of an attempt id. -/
structure DigestEnv where
  digestDiff : ByteArray → String
  digest : String → String

/-- The line ends of `subprocess.run(..., text=True)`. -/
def universalNewlines : List Char → List Char
  | [] => []
  | '\r' :: '\n' :: rest => '\n' :: universalNewlines rest
  | '\r' :: rest => '\n' :: universalNewlines rest
  | c :: rest => c :: universalNewlines rest

/-- `_run_git` on the output of a successful command; `none` is a text that starts with `ERROR:`. -/
def runGit (output : ByteArray) : Option String :=
  match String.fromUTF8? output with
  | none => none
  | some text =>
    let stripped := strip (universalNewlines text.toList)
    if "ERROR:".toList <+: stripped then none else some (String.ofList stripped)

/-- `PushAttemptIdentity`; the texts that name the attempt are functions of it. -/
structure PushAttemptIdentity where
  taskId : String
  sequence : Nat
  baseSha : String
  diffDigest : String
deriving DecidableEq

/-- The marker of an attempt in a commit message. -/
structure PushMarker where
  taskId : String
  sequence : Nat
  digest : String
deriving DecidableEq

/-- The text of a marker. -/
def PushMarker.text (marker : PushMarker) : String :=
  s!"[pr-agent-task:{marker.taskId}:push-attempt:{marker.sequence}:{marker.digest}]"

namespace PushAttemptIdentity

/-- `attempt_id`. -/
def attemptId (attempt : PushAttemptIdentity) : String :=
  s!"{attempt.taskId}:{attempt.sequence}:{attempt.baseSha}:{attempt.diffDigest}"

/-- `effect_name`. -/
def effectName (attempt : PushAttemptIdentity) : String :=
  let base := String.ofList (attempt.baseSha.toList.take 12)
  s!"commit-push:{attempt.sequence}:{base}:{attempt.diffDigest}"

/-- `marker`. -/
def marker (env : DigestEnv) (attempt : PushAttemptIdentity) : PushMarker where
  taskId := attempt.taskId
  sequence := attempt.sequence
  digest := env.digest attempt.attemptId

end PushAttemptIdentity

/-- The sequence number of a push result; none when it is missing or not positive. -/
def pushSequence (push : ToolResult) : Option Nat :=
  if push.attemptSequence > 0 then some push.attemptSequence.toNat else none

/-- The result published a commit. -/
def ToolResult.published (push : ToolResult) : Bool :=
  push.status = .success && push.changed && push.commitSha ≠ ""

/-- `_previous_sequences`. -/
def previousSequences (previousPushes : List ToolResult) : List Nat :=
  let sequences := previousPushes.filterMap pushSequence
  let legacyShas :=
    ((previousPushes.filter fun push => (pushSequence push).isNone && push.published).map
      (·.commitSha)).eraseDups
  if sequences ≠ [] then sequences else (List.range legacyShas.length).map (· + 1)

/-- The number of the next attempt: `max(_previous_sequences(...), default=0) + 1`. -/
def nextSequence (previousPushes : List ToolResult) : Nat :=
  (previousSequences previousPushes).foldl max 0 + 1

/-- `build_push_attempt`, from the outputs of its two commands; `none` is a raised error. -/
def buildPushAttempt
    (env : DigestEnv)
    (taskId : String)
    (previousPushes : List ToolResult)
    (headOutput stagedOutput : ByteArray) : Option PushAttemptIdentity :=
  match runGit headOutput with
  | none => none
  | some baseSha =>
    match runGit stagedOutput with
    | none => none
    | some stagedDiff =>
      some
        { taskId := taskId
          sequence := nextSequence previousPushes
          baseSha := String.ofList (strip baseSha.toList)
          diffDigest := env.digestDiff stagedDiff.toByteArray }

/-- How the digest check of `commit_and_push_tool` ends. -/
inductive DigestCheck where
  | passed
  | blocked (errorCode : String)
  | error
deriving DecidableEq

/-- The checks of `commit_and_push_tool` on a built attempt, before anything is written. -/
def digestCheck (attempt : Option PushAttemptIdentity) (native : Option NativeCommitDecision) :
    DigestCheck :=
  match attempt, native with
  | none, _ => .error
  | some _, none => .passed
  | some attempt, some native =>
    if !native.allowed then .blocked native.errorCode
    else if attempt.diffDigest ≠ native.validatedDiffDigest then
      .blocked "native_commit_digest_mismatch"
    else .passed

end MrAgent
