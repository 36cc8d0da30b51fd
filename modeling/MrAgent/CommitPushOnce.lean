import Mathlib
import MrAgent.PushInvariant

namespace MrAgent

open Interruptible

/-!
# One commit for an attempt

Any number of workers run `commit_and_push_tool` for a task, crash between any
two calls and start again, while other users push. The branch never holds two
commits of one attempt and loses no commit, and a reported success is in the
branch and, in queue mode, in the manifest.
-/

/-- What may pass between two calls of the worker: the others leave its clone alone. -/
abbrev Passes
    {Worker : Type}
    (repository : Repository)
    (task : TaskId)
    (worker : Worker)
    (before after : PushWorld Worker) : Prop :=
  PushGrows repository task before after ∧ after.clone worker = before.clone worker

variable {task : TaskId}

theorem Passes.trans
    {Worker : Type}
    {repository : Repository}
    {worker : Worker}
    {first second third : PushWorld Worker}
    (left : Passes repository task worker first second)
    (right : Passes repository task worker second third) :
    Passes repository task worker first third :=
  ⟨left.1.trans right.1, right.2.trans left.2⟩

/-- The outline of the argument. -/
def pushOutline
    (Worker : Type)
    [DecidableEq Worker]
    (env : PushEnv)
    (repository : Repository)
    (task : TaskId)
    (branch : String) : Outline (pushMachine Worker env repository task branch) where
  inv := PushInv env repository task
  grows := PushGrows repository task
  rely := Passes repository task
  ready := fun _ _ _ => True
  grows_refl := PushGrows.refl
  grows_trans := PushGrows.trans
  rely_refl := fun _ world => ⟨PushGrows.refl world, rfl⟩
  rely_trans := Passes.trans

/-- What a run of the tool ends with. -/
def PushEnds
    {Worker : Type}
    (repository : Repository)
    {task : TaskId}
    {branch : String}
    (input : TaskRequest task branch) :
    Except String PushResult → PushWorld Worker → Prop
  | .ok result, world => Reported repository task input.request.runtime.isSome world result
  | .error _, _ => True

theorem PushEnds.later
    {Worker : Type}
    {repository : Repository}
    {branch : String}
    {input : TaskRequest task branch}
    {end_ : Except String PushResult}
    {before after : PushWorld Worker}
    (grows : PushGrows repository task before after)
    (met : PushEnds repository input end_ before) :
    PushEnds repository input end_ after := by
  cases end_ with
  | error message =>
      exact trivial
  | ok result =>
      exact grows.reported met

section Tool

variable {Worker : Type} [DecidableEq Worker]
variable {env : PushEnv} {repository : Repository} {task : TaskId} {branch : String}
variable {worker : Worker} {input : TaskRequest task branch}

/-- The rest of a run keeps the invariant and ends well. -/
def Secure
    (env : PushEnv)
    (repository : Repository)
    (worker : Worker)
    (input : TaskRequest task branch)
    (program : PushProgram PushResult)
    (world : PushWorld Worker) : Prop :=
  (pushOutline Worker env repository task branch).Safe worker input
    (PushEnds repository input) program world

variable {world : PushWorld Worker}

theorem secure_raise (message : String) :
    Secure env repository worker input (.raise message) world :=
  trivial

theorem secure_return
    {result : PushResult}
    (reported : Reported repository task input.request.runtime.isSome world result) :
    Secure env repository worker input (pure result) world :=
  reported

omit [DecidableEq Worker] in
theorem reported_other
    {queue : Bool}
    {result : PushResult}
    (other : result.status ≠ .success) :
    Reported repository task queue world result :=
  fun success => absurd success other

variable {call : PushCall}

theorem secure_ask
    {next : call.Reply → PushProgram PushResult}
    (rest : ∀ now answer, Passes repository task worker world now →
      PushInv env repository task now → PushWorld.permits repository worker call answer now →
        PushInv env repository task (PushWorld.perform repository worker call answer now).1 ∧
          Secure env repository worker input
            (next (PushWorld.perform repository worker call answer now).2)
            (PushWorld.perform repository worker call answer now).1) :
    Secure env repository worker input (ask call >>= next) world := by
  intro now passed inv
  exact ⟨trivial, fun answer permitted => rest now answer passed inv permitted⟩

theorem secure_read
    {next : call.Reply → PushProgram PushResult}
    (reads : call.reads = true)
    (rest : ∀ now answer, Passes repository task worker world now →
      PushInv env repository task now → PushWorld.permits repository worker call answer now →
        Secure env repository worker input
          (next (PushWorld.perform repository worker call answer now).2) now) :
    Secure env repository worker input (ask call >>= next) world := by
  apply secure_ask
  intro now answer passed inv permitted
  rw [perform_reads reads answer now]
  exact ⟨inv, rest now answer passed inv permitted⟩

theorem secure_call
    {next : call.Reply → PushProgram PushResult}
    (still : call.moves = false)
    (free : call.guarded = false)
    (rest : ∀ now answer, PushInv env repository task now →
      Passes repository task worker world
        (PushWorld.perform repository worker call answer now).1 →
        Secure env repository worker input
          (next (PushWorld.perform repository worker call answer now).2)
          (PushWorld.perform repository worker call answer now).1) :
    Secure env repository worker input (ask call >>= next) world := by
  apply secure_ask
  intro now answer passed inv permitted
  refine ⟨perform_inv free permitted inv, ?_⟩
  apply rest now answer inv
  have kept : (PushWorld.perform repository worker call answer now).1.clone = now.clone :=
    perform_clone still answer now
  exact passed.trans ⟨(perform_grows task permitted).1, congrFun kept worker⟩

/-! ### Effects and the manifest -/

variable {runtime : PushRuntime} {attempt : PushAttemptIdentity}

theorem secure_raiseIfCanceled
    {next : Unit → PushProgram PushResult}
    (rest : ∀ now, Passes repository task worker world now →
      Secure env repository worker input (next ()) now) :
    Secure env repository worker input (raiseIfCanceled runtime >>= next) world := by
  unfold raiseIfCanceled
  rw [bind_assoc]
  apply secure_read rfl
  intro now answer passed _ _
  split
  · exact secure_raise _
  · exact rest now passed

theorem secure_assertFence
    {next : Unit → PushProgram PushResult}
    (rest : ∀ now, Passes repository task worker world now →
      Secure env repository worker input (next ()) now) :
    Secure env repository worker input (assertFenceSync runtime >>= next) world := by
  unfold assertFenceSync
  rw [bind_assoc]
  apply secure_read rfl
  intro now answer passed _ _
  split
  · exact secure_raise _
  · exact rest now passed

theorem isPushKey_of_request
    (queue : input.request.runtime = some runtime)
    (attempt : PushAttemptIdentity) :
    IsPushKey task (effectKey runtime attempt.effectName) :=
  ⟨runtime, attempt, input.belongs runtime queue, rfl⟩

theorem secure_claim
    (queue : input.request.runtime = some runtime)
    {next : PushEffect → PushProgram PushResult}
    (rest : ∀ now effect, Passes repository task worker world now →
      (effect.status = .completed → Reported repository task true now effect.result) →
        Secure env repository worker input (next effect) now) :
    Secure env repository worker input
      (claimPushEffect env runtime attempt.effectName >>= next) world := by
  unfold claimPushEffect
  rw [bind_assoc]
  apply secure_raiseIfCanceled
  intro middle passed
  rw [bind_assoc]
  apply secure_call rfl rfl
  intro now answer inv later
  have named := isPushKey_of_request queue attempt
  have grows := pushGrows_step repository task now
    (.effect (.claim (effectKey runtime attempt.effectName) runtime.taskId runtime.lease "{}"
      answer))
  rcases now.broker.claimEffect_reply (effectKey runtime attempt.effectName) runtime.taskId
      runtime.lease "{}" answer with lost | ⟨metadata, completed, found⟩ | ⟨after, metadata, result,
        opened, _⟩
  · have reply : (PushWorld.perform repository worker (.claimEffect
        (effectKey runtime attempt.effectName) runtime.taskId runtime.lease) answer now).2 =
        .lostLease := congrArg Prod.snd lost
    rw [reply]
    exact secure_raise _
  · have reply : (PushWorld.perform repository worker (.claimEffect
        (effectKey runtime attempt.effectName) runtime.taskId runtime.lease) answer now).2 =
        .record .completed metadata
          ((now.broker.effects (effectKey runtime attempt.effectName)).result.getD "") :=
      congrArg Prod.snd found
    rw [reply]
    apply rest _ _ (passed.trans later)
    intro _
    exact grows.reported (inv.stored _ named completed)
  · have reply : (PushWorld.perform repository worker (.claimEffect
        (effectKey runtime attempt.effectName) runtime.taskId runtime.lease) answer now).2 =
        .record .started metadata result := congrArg Prod.snd opened
    rw [reply]
    apply rest _ _ (passed.trans later)
    intro wrong
    cases wrong

variable {metadata : PushMetadata}

variable {effectName : String}

theorem secure_recordMetadata
    {next : Unit → PushProgram PushResult}
    (rest : ∀ now, Passes repository task worker world now →
      Secure env repository worker input (next ()) now) :
    Secure env repository worker input
      (recordPushMetadata env runtime effectName metadata >>= next) world := by
  unfold recordPushMetadata
  rw [bind_assoc]
  apply secure_raiseIfCanceled
  intro middle passed
  split
  · exact secure_raise _
  · rw [bind_assoc]
    apply secure_call rfl rfl
    intro now answer _ later
    split
    · exact secure_raise _
    · split
      · exact secure_raise _
      · exact rest _ (passed.trans later)

omit [DecidableEq Worker] in
theorem reported_of_written
    {broker : Broker}
    {key text : String}
    {result : PushResult}
    (stored : (broker.effects key).result = some text)
    (written : env.results.dumps result = some text)
    (reported : Reported repository task true world result) :
    Reported repository task true world (storedResult env broker key) := by
  have read : storedResult env broker key = result := by
    unfold storedResult JsonCodec.result
    rw [stored, Option.getD_some, if_neg (env.results.dumps_nonempty written),
      env.results.loads_dumps written]
  rw [read]
  exact reported

theorem secure_complete
    {result : PushResult}
    (reported : Reported repository task true world result)
    {next : Unit → PushProgram PushResult}
    (rest : ∀ now, Passes repository task worker world now →
      Secure env repository worker input (next ()) now) :
    Secure env repository worker input
      (completePushEffect env runtime effectName result >>= next) world := by
  unfold completePushEffect
  split
  · exact secure_raise _
  rename_i text written
  rw [bind_assoc]
  apply secure_ask
  intro now answer passed inv permitted
  have grows := pushGrows_step repository task now
    (.effect (.complete (effectKey runtime effectName) runtime.taskId runtime.lease text answer))
  constructor
  · apply inv.setBroker grows
    intro key _ _
    rcases now.broker.completeEffect_completed (effectKey runtime effectName) runtime.taskId
        runtime.lease text answer key with old | ⟨_, stored⟩
    · exact Or.inl old
    · exact Or.inr (reported_of_written stored written (passed.1.reported reported))
  · split
    · exact secure_raise _
    · split
      · exact secure_raise _
      · exact rest _ (passed.trans ⟨grows, rfl⟩)

theorem secure_finishAttempt
    {result : PushResult}
    (reported : Reported repository task input.request.runtime.isSome world result) :
    Secure env repository worker input
      (finishAttempt env input.request.runtime attempt result) world := by
  unfold finishAttempt
  have reported' : Reported repository task input.request.runtime.isSome world
      { result with attempt := some attempt } := reported
  cases queue : input.request.runtime with
  | none =>
      exact secure_return reported'
  | some runtime =>
      have stored := reported'
      rw [queue] at stored
      apply secure_complete stored
      intro now passed
      exact secure_return (passed.1.reported reported')

variable (commitSha : Option String)

theorem secure_finishBlocked
    (sourceBranch message errorCode : String) :
    Secure env repository worker input
      (finishBlocked env input.request.runtime attempt commitSha sourceBranch message errorCode)
      world := by
  apply secure_finishAttempt
  apply reported_other
  nofun

theorem secure_recordRepairCommit
    (queue : input.request.runtime = some runtime)
    {entry : RepairCommitEntry}
    {parentTreeSha sourceBranch : String}
    {next : Unit → PushProgram PushResult}
    (rest : ∀ now, Passes repository task worker world now →
      Manifested task now entry.commitSha → Secure env repository worker input (next ()) now) :
    Secure env repository worker input
      (recordRepairCommitSync runtime entry parentTreeSha sourceBranch >>= next) world := by
  unfold recordRepairCommitSync
  rw [bind_assoc]
  apply secure_assertFence
  intro fenced fencedPassed
  rw [bind_assoc]
  apply secure_read rfl
  intro owned answer ownedPassed _ _
  dsimp only
  split
  · exact secure_raise _
  rw [bind_assoc]
  apply secure_read rfl
  intro listed answer listedPassed _ _
  split
  · exact secure_raise _
  rename_i baseTreeSha _
  rw [bind_assoc]
  apply secure_call rfl rfl
  intro now answer _ later
  split
  · rename_i code stored reply
    obtain ⟨manifest, present, member⟩ := now.broker.appendRepairCommit_mem reply
    apply rest _ (((fencedPassed.trans ownedPassed).trans listedPassed).trans later)
    refine ⟨manifest, ?_, entry, member, rfl⟩
    rw [← input.belongs runtime queue]
    exact present
  · exact secure_raise _
  · exact secure_raise _

variable {sha : String}

theorem secure_recordConfirmed
    (named : metadata.commitSha = some sha)
    {next : Unit → PushProgram PushResult}
    (rest : ∀ now, Passes repository task worker world now →
      (input.request.runtime.isSome = true → Manifested task now sha) →
        Secure env repository worker input (next ()) now) :
    Secure env repository worker input
      (recordConfirmedRepairCommit env input.request.runtime attempt metadata >>= next) world := by
  unfold recordConfirmedRepairCommit
  cases queue : input.request.runtime with
  | none =>
      apply rest world ⟨PushGrows.refl world, rfl⟩
      intro impossible
      rw [queue] at impossible
      cases impossible
  | some runtime =>
      dsimp only
      split
      · exact secure_raise _
      · rename_i entry parentTreeSha sourceBranch evidence
        have commit : entry.commitSha = sha := by
          unfold repairCommitEntry at evidence
          simp only [named, Option.bind_eq_bind, Option.bind_eq_some_iff, Option.some.injEq,
            Option.pure_def, Prod.mk.injEq] at evidence
          obtain ⟨_, rfl, _, _, _, _, _, _, _, _, _, _, rfl, _⟩ := evidence
          rfl
        apply secure_recordRepairCommit queue
        intro now passed manifested
        apply rest now passed
        intro _
        rw [← commit]
        exact manifested

theorem secure_repairCommitMetadata
    {commitSha sourceBranch pushedAt : String}
    {next : PushMetadata → PushProgram PushResult}
    (rest : ∀ now evidence, Passes repository task worker world now →
      evidence.commitSha = some commitSha →
        Secure env repository worker input (next evidence) now) :
    Secure env repository worker input
      (repairCommitMetadata attempt commitSha sourceBranch pushedAt >>= next) world := by
  unfold repairCommitMetadata
  rw [bind_assoc]
  apply secure_read rfl
  intro first _ firstPassed _ _
  rw [bind_assoc]
  apply secure_read rfl
  intro second _ secondPassed _ _
  rw [bind_assoc]
  apply secure_read rfl
  intro third _ thirdPassed _ _
  have passed := (firstPassed.trans secondPassed).trans thirdPassed
  split
  · exact secure_raise _
  split
  · exact secure_raise _
  split
  · rw [bind_assoc]
    apply secure_read rfl
    intro now _ timed _ _
    exact rest now _ (passed.trans timed) rfl
  · exact rest third _ passed rfl

theorem secure_confirmedEvidence
    {sourceBranch sha : String}
    (named : metadata.commitSha = some sha)
    (nonempty : sha ≠ "")
    {next : PushMetadata → PushProgram PushResult}
    (rest : ∀ now evidence, Passes repository task worker world now →
      evidence.commitSha = some sha → Secure env repository worker input (next evidence) now) :
    Secure env repository worker input
      (confirmedEvidence env input.request.runtime attempt sourceBranch metadata >>= next)
      world := by
  unfold confirmedEvidence
  split
  · exact rest world metadata ⟨PushGrows.refl world, rfl⟩ named
  dsimp only
  rw [named, Option.getD_some, if_neg nonempty, pure_bind, bind_assoc]
  apply secure_repairCommitMetadata
  intro read evidence readPassed same
  cases input.request.runtime with
  | none =>
      exact rest read evidence readPassed same
  | some runtime =>
      rw [bind_assoc]
      apply secure_recordMetadata
      intro now passed
      exact rest now evidence (readPassed.trans passed) same

theorem secure_finishConfirmed
    {sourceBranch sha message : String}
    (named : metadata.commitSha = some sha)
    (nonempty : sha ≠ "")
    (contained : repository.graph.Contains world.remote sha) :
    Secure env repository worker input
      (finishConfirmedPush env input.request.runtime attempt sourceBranch metadata message)
      world := by
  unfold finishConfirmedPush
  apply secure_confirmedEvidence named nonempty
  intro read evidence readPassed same
  apply secure_recordConfirmed same
  intro now passed manifested
  apply secure_finishAttempt
  intro _
  refine ⟨sha, same, ?_, manifested⟩
  exact (readPassed.trans passed).1.remote sha contained

variable {now : PushWorld Worker}

theorem contains_of_lsRemote
    {sourceBranch sha : String}
    {answer : (PushCall.lsRemote sourceBranch).Answer}
    (nonempty : sha ≠ "")
    (printed : (PushWorld.perform repository worker (.lsRemote sourceBranch) answer now).2.1 =
      sha) :
    repository.graph.Contains now.remote sha := by
  cases answer with
  | some error =>
      exact absurd printed.symm nonempty
  | none =>
      change now.remote.getD "" = sha at printed
      cases head : now.remote with
      | none =>
          rw [head] at printed
          exact absurd printed.symm nonempty
      | some tip =>
          rw [head, Option.getD_some] at printed
          rw [printed]
          exact CommitGraph.contains_head sha

/-! ### Resuming and replaying -/

theorem secure_error
    (sourceBranch message : String) :
    Secure env repository worker input (pure (pushError attempt commitSha sourceBranch message))
      world := by
  apply secure_return
  apply reported_other
  nofun

theorem secure_resumeRecorded
    (queue : input.request.runtime = some runtime)
    {sourceBranch recordedSha : String}
    (nonempty : recordedSha ≠ "") :
    Secure env repository worker input
      (resumeRecorded env runtime attempt sourceBranch recordedSha metadata) world := by
  unfold resumeRecorded
  rw [← queue]
  apply secure_read rfl
  intro seen answer _ _ _
  split
  rename_i remoteSha remoteError reply
  split
  · exact secure_error _ _ _
  split
  · rename_i same
    exact secure_finishConfirmed rfl nonempty
      (contains_of_lsRemote nonempty ((congrArg Prod.fst reply).trans same))
  dsimp only
  generalize (if metadata.previousRemoteSha.getD "" = "" then attempt.baseSha
    else metadata.previousRemoteSha.getD "") = previousSha
  split
  · exact secure_finishBlocked _ _ _ _
  apply secure_assertFence
  intro fenced _
  apply secure_call rfl rfl
  intro pushed pushAnswer _ _
  apply secure_read rfl
  intro now answer _ _ _
  split
  · rename_i same
    exact secure_finishConfirmed rfl nonempty (contains_of_lsRemote nonempty same)
  split
  · exact secure_finishBlocked _ _ _ _
  · exact secure_error _ _ _

omit [DecidableEq Worker] in
theorem fullSha_text
    (full : fullSha sha = true) :
    sha ≠ "" ∧ isError sha = false ∧ String.ofList (strip sha.toList) = sha := by
  unfold fullSha at full
  rw [Bool.and_eq_true, beq_iff_eq, List.all_eq_true] at full
  obtain ⟨length, digits⟩ := full
  have plain : ∀ c ∈ sha.toList, isSpace c = false ∧ c ≠ 'E' := by
    intro c member
    have listed : ∀ digit ∈ "0123456789abcdef".toList, isSpace digit = false ∧ digit ≠ 'E' := by
      decide
    exact listed c (of_decide_eq_true (digits c member))
  refine ⟨?_, ?_, ?_⟩
  · rintro rfl
    cases length
  · unfold isError
    cases text : sha.toList with
    | nil =>
        rfl
    | cons first rest =>
        have letter : first ≠ 'E' := (plain first (by rw [text]; exact List.mem_cons_self)).2
        simp [List.isPrefixOf, letter.symm]
  · have front : sha.toList.dropWhile isSpace = sha.toList := by
      rw [List.dropWhile_eq_self_iff]
      intro nonempty
      rw [(plain _ (List.getElem_mem nonempty)).1]
      decide
    have back : sha.toList.reverse.dropWhile isSpace = sha.toList.reverse := by
      rw [List.dropWhile_eq_self_iff]
      intro nonempty
      rw [(plain _ (List.mem_reverse.mp (List.getElem_mem nonempty))).1]
      decide
    unfold strip
    rw [front, back, List.reverse_reverse, String.ofList_toList]

omit [DecidableEq Worker] in
theorem ne_empty_of_isError
    {text : String}
    (error : isError text = true) :
    text ≠ "" := by
  rintro rfl
  revert error
  decide

variable {answer : (PushCall.revParse .head).Answer}

theorem revParse_head
    (permitted : PushWorld.permits repository worker (.revParse .head) answer now) :
    (PushWorld.perform repository worker (.revParse .head) answer now).2 =
        (now.clone worker).head ∨
      isError (PushWorld.perform repository worker (.revParse .head) answer now).2 = true := by
  cases answer with
  | none =>
      exact Or.inl rfl
  | some error =>
      exact Or.inr (permitted error rfl)

theorem revParse_head_nonempty
    (permitted : PushWorld.permits repository worker (.revParse .head) answer now) :
    (PushWorld.perform repository worker (.revParse .head) answer now).2 ≠ "" := by
  rcases revParse_head permitted with head | error
  · rw [head]
    exact (fullSha_text (now.clone worker).head_sha).1
  · exact ne_empty_of_isError error

variable {sourceBranch : String}

theorem secure_resume
    (queue : input.request.runtime = some runtime) :
    Secure env repository worker input
      (resumePushAttempt env runtime attempt sourceBranch metadata) world := by
  unfold resumePushAttempt
  dsimp only
  generalize (if metadata.sourceBranch.getD "" = "" then sourceBranch
    else metadata.sourceBranch.getD "") = target
  split
  · rw [← queue]
    exact secure_finishBlocked _ _ _ _
  apply secure_read rfl
  intro now answer _ _ permitted
  split
  · apply secure_recordMetadata
    intro later _
    exact secure_resumeRecorded queue (revParse_head_nonempty permitted)
  · rename_i recorded
    split
    · rw [← queue]
      exact secure_finishBlocked _ _ _ _
    · exact secure_resumeRecorded queue recorded

theorem secure_replay
    (queue : input.request.runtime = some runtime)
    {effect : PushEffect}
    (reported : Reported repository task true world effect.result) :
    Secure env repository worker input (replayCompleted env runtime attempt effect) world := by
  have answered : ∀ now, Passes repository task worker world now →
      Secure env repository worker input (pure effect.result) now := by
    intro now passed
    apply secure_return
    rw [queue]
    exact passed.1.reported reported
  unfold replayCompleted
  dsimp only
  split
  · rw [← queue]
    apply secure_recordConfirmed rfl
    intro now passed _
    exact answered now passed
  · exact answered world ⟨PushGrows.refl world, rfl⟩

/-! ### New attempts -/

theorem secure_pushCommitted
    {sourceBranch previousSha commitHash : String}
    {evidence : PushMetadata}
    (named : evidence.commitSha = some commitHash)
    (nonempty : commitHash ≠ "") :
    Secure env repository worker input
      (pushCommitted env input.request.runtime attempt sourceBranch previousSha commitHash evidence)
      world := by
  unfold pushCommitted
  apply secure_call rfl rfl
  intro pushed pushAnswer _ _
  split
  · split
    · exact secure_error _ _ _
    · apply secure_read rfl
      intro now answer _ _ _
      split
      rename_i remoteSha remoteError reply
      split
      · rename_i same
        exact secure_finishConfirmed named nonempty
          (contains_of_lsRemote nonempty ((congrArg Prod.fst reply).trans same))
      · split
        · exact secure_finishBlocked _ _ _ _
        · exact secure_error _ _ _
  · apply secure_read rfl
    intro seen answer _ _ _
    split
    rename_i remoteSha remoteError reply
    split
    · split
      · exact secure_finishBlocked _ _ _ _
      · exact secure_error _ _ _
    · rename_i same
      have contained := contains_of_lsRemote nonempty
        ((congrArg Prod.fst reply).trans (not_not.mp same))
      apply secure_read rfl
      intro now _ passed _ _
      split
      · exact secure_error _ _ _
      · split
        · exact secure_error _ _ _
        · exact secure_finishConfirmed named nonempty (passed.1.remote _ contained)

theorem secure_commitEvidence
    {commitHash sourceBranch : String}
    {next : PushMetadata → PushProgram PushResult}
    (rest : ∀ now evidence, evidence.commitSha = some commitHash →
      Secure env repository worker input (next evidence) now) :
    Secure env repository worker input
      (commitEvidence env input.request.runtime attempt commitHash sourceBranch >>= next) world := by
  unfold commitEvidence
  split
  · exact rest world _ rfl
  · rw [bind_assoc]
    apply secure_repairCommitMetadata
    intro read evidence _ named
    rw [bind_assoc]
    apply secure_recordMetadata
    intro stored _
    rw [bind_assoc]
    apply secure_assertFence
    intro now _
    exact rest now evidence named

variable {mrId : Int}

theorem secure_commitStaged
    {sourceBranch previousSha : String}
    (based : attempt.baseSha = (world.clone worker).head)
    (contained : repository.graph.Contains world.remote attempt.baseSha) :
    Secure env repository worker input
      (commitStaged env input.request.runtime attempt mrId sourceBranch previousSha) world := by
  unfold commitStaged
  apply secure_ask
  intro now answer passed inv permitted
  constructor
  · cases answer with
    | failed output =>
        exact inv
    | made sha valid output =>
        obtain ⟨parents, origin, _, _⟩ := permitted
        apply inv.setClone worker
        refine Or.inr ⟨attempt, origin, ?_, passed.1.remote _ contained⟩
        rw [parents, based, passed.2]
  · split
    · split
      · apply secure_return
        apply reported_other
        nofun
      · exact secure_error _ _ _
    · apply secure_read rfl
      intro committed headAnswer _ _ printed
      split
      · exact secure_finishBlocked _ _ _ _
      · apply secure_commitEvidence
        intro later evidence named
        exact secure_pushCommitted named (revParse_head_nonempty printed)

theorem secure_configureAndCommit
    {sourceBranch previousSha : String}
    (based : attempt.baseSha = (world.clone worker).head)
    (contained : repository.graph.Contains world.remote attempt.baseSha) :
    Secure env repository worker input
      (configureAndCommit env input.request.runtime attempt mrId sourceBranch previousSha)
      world := by
  unfold configureAndCommit
  apply secure_read rfl
  intro first _ firstPassed _ _
  split
  · exact secure_error _ _ _
  apply secure_read rfl
  intro second _ secondPassed _ _
  split
  · exact secure_error _ _ _
  have passed := firstPassed.trans secondPassed
  have commits : ∀ now, Passes repository task worker world now →
      Secure env repository worker input
        (commitStaged env input.request.runtime attempt mrId sourceBranch previousSha) now := by
    intro now later
    exact secure_commitStaged (based.trans (congrArg Clone.head later.2).symm)
      (later.1.remote _ contained)
  split
  · apply secure_assertFence
    intro now fenced
    exact commits now (passed.trans fenced)
  · exact commits second passed

theorem secure_startAttempt
    (based : attempt.baseSha = (world.clone worker).head) :
    Secure env repository worker input
      (startAttempt env input.request.runtime attempt mrId sourceBranch) world := by
  unfold startAttempt
  apply secure_read rfl
  intro first _ firstPassed _ _
  split
  · exact secure_finishBlocked _ _ _ _
  apply secure_read rfl
  intro seen answer seenPassed _ _
  split
  rename_i previousSha remoteError reply
  split
  · exact secure_error _ _ _
  split
  · exact secure_finishBlocked _ _ _ _
  rename_i same
  have nonempty : attempt.baseSha ≠ "" := by
    rw [based]
    exact (fullSha_text (world.clone worker).head_sha).1
  have contained := contains_of_lsRemote nonempty
    ((congrArg Prod.fst reply).trans (not_not.mp same))
  have passed := firstPassed.trans seenPassed
  have commits : ∀ now, Passes repository task worker seen now →
      Secure env repository worker input
        (configureAndCommit env input.request.runtime attempt mrId sourceBranch previousSha)
        now := by
    intro now later
    exact secure_configureAndCommit
      (based.trans (congrArg Clone.head (passed.trans later).2).symm) (later.1.remote _ contained)
  split
  · apply secure_recordMetadata
    intro now later
    exact commits now later
  · exact commits seen ⟨PushGrows.refl seen, rfl⟩

theorem secure_publishAttempt
    (based : attempt.baseSha = (world.clone worker).head) :
    Secure env repository worker input
      (publishAttempt env input.request.runtime attempt mrId sourceBranch) world := by
  unfold publishAttempt
  split
  · rename_i queue
    rw [← queue]
    exact secure_startAttempt based
  · rename_i runtime queue
    apply secure_claim queue
    intro now effect passed reported
    split
    · rename_i completed
      exact secure_replay queue (reported completed)
    · split
      · exact secure_resume queue
      · rw [← queue]
        exact secure_startAttempt (based.trans (congrArg Clone.head passed.2).symm)

variable {previousPushes : List ToolResult}

theorem secure_recoverPushAttempt
    {next : Option PushAttemptIdentity → PushProgram PushResult}
    (rest : ∀ now recovered, Secure env repository worker input (next recovered) now) :
    Secure env repository worker input
      (recoverPushAttempt env runtime previousPushes >>= next) world := by
  unfold recoverPushAttempt
  rw [bind_assoc]
  apply secure_read rfl
  intro logged _ _ _ _
  split
  · exact rest logged none
  split
  · exact rest logged none
  rw [bind_assoc]
  apply secure_read rfl
  intro head _ _ _ _
  rw [bind_assoc]
  apply secure_read rfl
  intro parent _ _ _ _
  rw [bind_assoc]
  apply secure_read rfl
  intro now _ _ _ _
  split
  · exact rest now none
  dsimp only
  split
  · exact rest now none
  · exact rest now (some _)

theorem secure_recoverAttempt :
    Secure env repository worker input
      (recoverAttempt env input.request.runtime previousPushes sourceBranch) world := by
  have quiet : ∀ now : PushWorld Worker, Secure env repository worker input
      (pure (plainResult .noChanges false sourceBranch "OK: 无新变更需要提交")) now := by
    intro now
    apply secure_return
    apply reported_other
    nofun
  unfold recoverAttempt
  dsimp only
  split
  · exact quiet world
  · rename_i runtime queue
    apply secure_recoverPushAttempt
    intro found recovered
    split
    · exact quiet found
    · apply secure_claim queue
      intro now effect passed reported
      split
      · rename_i completed
        exact secure_replay queue (reported completed)
      · exact secure_resume queue

theorem secure_buildStagedAttempt
    {taskId : String}
    {next : Except String PushAttemptIdentity → PushProgram PushResult}
    (failed : ∀ now message, Secure env repository worker input (next (.error message)) now)
    (built : ∀ (now : PushWorld Worker) attempt, attempt.baseSha = (now.clone worker).head →
      Secure env repository worker input (next (.ok attempt)) now) :
    Secure env repository worker input
      (buildStagedAttempt env taskId previousPushes >>= next) world := by
  unfold buildStagedAttempt
  rw [bind_assoc]
  apply secure_read rfl
  intro first answer _ _ permitted
  split
  · exact failed first _
  rename_i plain
  rw [bind_assoc]
  apply secure_read rfl
  intro now _ passed _ _
  split
  · exact failed now _
  apply built now
  dsimp only
  rcases revParse_head permitted with head | error
  · rw [head, (fullSha_text (first.clone worker).head_sha).2.2, passed.2]
  · exact absurd error plain

theorem secure_plain
    {result : PushResult}
    (other : result.status ≠ .success) :
    Secure env repository worker input (pure result) world :=
  secure_return (reported_other other)

theorem secure_commitStagedChanges :
    Secure env repository worker input (commitStagedChanges env input.request) world := by
  unfold commitStagedChanges
  dsimp only
  apply secure_read rfl
  intro read _ _ _ _
  split
  · exact secure_plain nofun
  · exact secure_recoverAttempt
  · apply secure_buildStagedAttempt
    · intro failed message
      exact secure_plain nofun
    · intro built attempt based
      dsimp only
      split
      · exact secure_publishAttempt based
      · split
        · exact secure_plain nofun
        · exact secure_publishAttempt based

theorem secure_checkAndPush :
    Secure env repository worker input (checkAndPush env input.request) world := by
  -- Staging changes the index of the clone and nothing else.
  have adds : ∀ now : PushWorld Worker, Secure env repository worker input
      (ask .addAll >>= fun ret =>
        if isError ret then pure (plainResult .error false input.request.sourceBranch ret)
        else commitStagedChanges env input.request) now := by
    intro now
    apply secure_ask
    intro before answer _ inv permitted
    refine ⟨perform_inv rfl permitted inv, ?_⟩
    split
    · exact secure_plain nofun
    · exact secure_commitStagedChanges
  unfold checkAndPush
  dsimp only
  split
  · exact secure_plain nofun
  split
  · exact secure_plain nofun
  apply secure_read rfl
  intro valid _ _ _ _
  split
  · exact secure_plain nofun
  split
  · apply secure_read rfl
    intro substituted _ _ _ _
    split
    · exact secure_plain nofun
    · exact adds substituted
  · exact adds valid

theorem secure_tool :
    Secure env repository worker input (commitAndPushTool env input.request) world := by
  unfold commitAndPushTool
  split
  · apply secure_raiseIfCanceled
    intro now _
    exact secure_checkAndPush
  · exact secure_checkAndPush

end Tool

section Runs

variable {Worker : Type} [DecidableEq Worker]
variable {env : PushEnv} {repository : Repository} {task : TaskId} {branch : String}

theorem PushChange.keeps
    {change : PushChange Worker}
    {busy : Worker → Bool}
    {world : PushWorld Worker}
    (inv : PushInv env repository task world)
    (allowed : change.Allowed repository task busy world) :
    PushInv env repository task (change.apply world) ∧
      PushGrows repository task world (change.apply world) ∧
      ∀ worker, busy worker = true → (change.apply world).clone worker = world.clone worker := by
  cases change with
  | foreign head =>
      exact ⟨inv.foreign allowed.1 allowed.2, pushGrows_setRemote task allowed.1, fun _ _ => rfl⟩
  | arrive head =>
      exact ⟨inv.push (inv.sent head allowed.1) allowed.2, pushGrows_setRemote task allowed.2,
        fun _ _ => rfl⟩
  | prepare owner clone =>
      refine ⟨inv.setClone owner (Or.inl allowed.2),
        ⟨CommitGraph.Extends.refl _, ManifestGrows.refl _⟩, ?_⟩
      intro worker running
      have different : worker ≠ owner := by
        rintro rfl
        rw [allowed.1] at running
        cases running
      simp [PushChange.apply, PushWorld.setClone, different]
  | broker op =>
      have grows := pushGrows_step repository task world op
      refine ⟨inv.setBroker grows ?_, grows, fun _ _ => rfl⟩
      intro key named _
      exact Or.inl (allowed key named)

theorem pushOutline_valid :
    (pushOutline Worker env repository task branch).Valid
      (PushEnds repository) (PushEnds repository) where
  stable := fun _ _ _ _ _ passed met => PushEnds.later passed.1 met
  reports := fun _ _ _ => id
  lasting := fun _ _ _ _ => PushEnds.later
  starts := fun _ _ _ _ => secure_tool
  performs := by
    intro worker input call answer world _ permitted
    obtain ⟨grows, others⟩ := perform_grows task permitted
    exact ⟨grows, fun other different => ⟨grows, others other different⟩⟩
  changes := by
    intro change busy world inv allowed
    obtain ⟨kept, grows, others⟩ := PushChange.keeps inv allowed
    exact ⟨kept, grows, fun worker running => ⟨grows, others worker running⟩⟩

/--
No run has begun: the branch holds no commit of the tool, all clones are on
the branch, and the ledger has no record of a push of the task.
-/
structure PushBegins
    (repository : Repository)
    {task : TaskId}
    {branch : String}
    (state : State Worker PushCall.Reply (PushWorld Worker) (TaskRequest task branch) PushResult) :
    Prop where
  idle : ∀ worker, state.active worker = none
  ended : state.ended = []
  unmade : ∀ commit, repository.graph.Contains state.world.remote commit →
    repository.origin commit = none
  cloned : ∀ worker, repository.graph.Contains state.world.remote (state.world.clone worker).head
  sent : state.world.sent = []
  unclaimed : ∀ key, IsPushKey task key → (state.world.broker.effects key).status = none

omit [DecidableEq Worker] in
theorem PushBegins.inv
    (env : PushEnv)
    {state : State Worker PushCall.Reply (PushWorld Worker) (TaskRequest task branch) PushResult}
    (begins : PushBegins repository state) :
    PushInv env repository task state.world where
  child := by
    intro commit attempt contained origin
    rw [begins.unmade commit contained] at origin
    cases origin
  once := by
    intro first second attempt contained _ origin _
    rw [begins.unmade first contained] at origin
    cases origin
  cloned := fun worker => Or.inl (begins.cloned worker)
  sent := by
    intro commit member
    rw [begins.sent] at member
    cases member
  stored := by
    intro key named completed
    rw [begins.unclaimed key named] at completed
    cases completed

/-- In every run the branch holds at most one commit of an attempt and loses none, and each
returned success names a commit of the branch, for a queue run also one of the manifest. -/
theorem commit_and_push_exactly_once
    {start reached final :
      State Worker PushCall.Reply (PushWorld Worker) (TaskRequest task branch) PushResult}
    (begins : PushBegins repository start)
    (run : (pushMachine Worker env repository task branch).Runs start reached)
    (further : (pushMachine Worker env repository task branch).Runs reached final) :
    (∀ attempt first second, repository.graph.Contains reached.world.remote first →
      repository.graph.Contains reached.world.remote second →
      repository.origin first = some attempt → repository.origin second = some attempt →
        first = second) ∧
    (∀ commit, repository.graph.Contains reached.world.remote commit →
      repository.graph.Contains final.world.remote commit) ∧
    ∀ input result, (input, Except.ok result) ∈ reached.ended → result.status = .success →
      ∃ sha, result.commitSha = some sha ∧
        repository.graph.Contains reached.world.remote sha ∧
        (input.request.runtime.isSome = true → Manifested task reached.world sha) := by
  have valid : (pushOutline Worker env repository task branch).Valid
      (PushEnds repository) (PushEnds repository) :=
    pushOutline_valid
  have holds := Outline.Holds.of_runs valid run (begins.inv env) begins.idle begins.ended
  refine ⟨?_, ?_, ?_⟩
  · intro attempt first second left right leftOrigin rightOrigin
    exact holds.inv.once first second attempt left right leftOrigin rightOrigin
  · exact (Outline.grows_of_runs valid further holds).remote
  · intro input result member success
    exact holds.ended input (.ok result) member success

end Runs

namespace InterruptedPush

def base : String := "bbbbbbbbbbbbbbbbbbbbbbbbbbbbbbbbbbbbbbbb"
def commit : String := "cccccccccccccccccccccccccccccccccccccccc"
def later : String := "dddddddddddddddddddddddddddddddddddddddd"

/-- The attempt that commits one added line. -/
def attempt : PushAttemptIdentity where
  taskId := "repair"
  sequence := 1
  baseSha := base
  diffDigest := "sha256:04a6fb16934512861d5643dc9a5f8e7881cf42630a6f23699a6bca66d01ffbf9"

/-- What the attempt stores before its commit is known. -/
def opened : PushMetadata :=
  { sourceBranch := some "fix", previousRemoteSha := some base }

/-- What the second run stores when it has found the commit. -/
def found : PushMetadata :=
  { commitSha := some commit, sourceBranch := some "fix", previousRemoteSha := some base }

/-- What it stores when it has seen the commit on the branch. -/
def confirmed : PushMetadata :=
  { found with
    parentSha := some base, treeSha := some commit, baseTreeSha := some base,
    pushedAt := some "t" }

/-- The result of the second run. -/
def result : PushResult where
  status := .success
  changed := true
  commitSha := some commit
  sourceBranch := "fix"
  message := s!"OK: pushed to fix, commit={commit}"
  attempt := some attempt

def env : PushEnv where
  digest :=
    { digestDiff := fun _ => attempt.diffDigest
      digest := fun _ => "1a39ce08d1752a92ab5b" }
  results :=
    { null := { result with status := .absent }
      dumps := fun value => if value = result then some "r" else none
      loads := fun _ => result
      loads_dumps := by
        intro value text written
        split at written
        · rename_i same
          exact same.symm
        · cases written
      dumps_nonempty := by
        intro value text written
        split at written
        · cases written
          decide
        · cases written }
  metadata :=
    { null := {}
      dumps := fun value =>
        if value = opened then some "1" else if value = found then some "2"
        else if value = confirmed then some "3" else none
      loads := fun text =>
        if text = "1" then opened else if text = "2" then found
        else if text = "3" then confirmed else {}
      loads_dumps := by
        intro value text written
        split at written
        · rename_i same
          cases written
          exact same.symm
        · split at written
          · rename_i same
            cases written
            exact same.symm
          · split at written
            · rename_i same
              cases written
              exact same.symm
            · cases written
      dumps_nonempty := by
        intro value text written
        split at written
        · cases written
          decide
        · split at written
          · cases written
            decide
          · split at written
            · cases written
              decide
            · cases written }
  metadata_empty := by decide

/-- The base, the commit of the attempt, and a commit that another user adds. -/
def repository : Repository where
  graph :=
    { parents := fun sha => if sha = commit then [base] else if sha = later then [commit] else []
      rank := fun sha => if sha = later then 2 else if sha = commit then 1 else 0
      rank_lt := by
        intro sha parent member
        split at member
        · rename_i same
          rw [List.mem_singleton.mp member, same]
          decide
        · split at member
          · rename_i same
            rw [List.mem_singleton.mp member, same]
            decide
          · cases member }
  tree := id
  message := fun sha => if sha = commit then commitMessage env 7 attempt else ""
  diff := fun sha => if sha = commit then "+x" else ""
  origin := fun sha => if sha = commit then some attempt else none

/-- The task is running and has a card. -/
def broker : Broker :=
  { Broker.empty with
    tasks := Function.update Broker.empty.tasks Sample.repair
      { payload := some (Sample.envelope Sample.repair .prCommand "/triage" "key") }
    cards := Function.update Broker.empty.cards "card" Sample.card
    taskCards := Function.update Broker.empty.taskCards Sample.repair (some "card") }

def clone : Clone where
  head := base
  staged := ""
  head_sha := by decide

/-- The worker has one added line in its workspace. -/
def request : TaskRequest Sample.repair "fix" where
  request :=
    { mrId := 7
      cloned := true
      sourceBranch := "fix"
      triggerType := .other "ut"
      nativeBackend := false
      messages := []
      runtime := some { taskId := Sample.repair, lease := none } }
  belongs := by
    intro runtime same
    cases same
    rfl
  onBranch := rfl

/-- One worker, whose clone is up to date. -/
def start :
    State Unit PushCall.Reply (PushWorld Unit) (TaskRequest Sample.repair "fix") PushResult where
  world := { broker := broker, remote := some base, sent := [], clone := fun _ => clone }
  active := fun _ => none
  ended := []

/-- Everything works; the argument is what staging finds. -/
def works (staged : String) : (call : PushCall) → call.Answer
  | .validateWorkspace => none
  | .validateMemberSubstitutions => none
  | .addAll => .ok staged
  | .stagedChanges | .stagedDiff | .committedDiff | .log | .revParse _ | .lsRemote _ => none
  | .config .. | .status => ""
  | .now => "t"
  | .commit .. => .made commit (by decide) ""
  | .push _ => .landed ""
  | .isCancelRequested _ | .assertFence _ | .cardOwner _ | .manifest _ => ()
  | .claimEffect .. | .updateEffect .. | .completeEffect .. | .appendRepairCommit .. => 1

/-- The tests of the schedule below. -/
def checks : Checks (pushMachine Unit env repository Sample.repair "fix") where
  call := fun worker _ => PushWorld.permitted repository worker
  change := fun change _ world =>
    match change with
    | .foreign head => decide (world.remote = some commit) && decide (head = later)
    | _ => false
  permits := PushWorld.permits_of_permitted
  allows := by
    intro change busy world passed
    cases change with
    | foreign head =>
        simp only [Bool.and_eq_true, decide_eq_true_eq] at passed
        obtain ⟨remote, rfl⟩ := passed
        refine ⟨?_, ?_⟩
        · apply PushWorld.fastForward_of_forwards
          rw [remote]
          decide
        · rintro sha ⟨tip, same, ancestor⟩
          cases same
          have single : repository.graph.parents later = [commit] := by decide
          rcases ancestor.of_single single with rfl | below
          · right
            decide
          · left
            rw [remote]
            exact ⟨commit, rfl, below⟩
    | arrive head => cases passed
    | prepare worker clone => cases passed
    | broker op => cases passed

/--
The first run crashes right after its commit, the second one finds nothing
staged and pushes the commit, and then another user pushes.
-/
def schedule :
    List (Interruptible.Op Unit PushCall.Answer (TaskRequest Sample.repair "fix")
      (PushChange Unit)) :=
  .start () request :: List.replicate 16 (.advance () (works "+x")) ++
    [.crash (), .start () request] ++ List.replicate 33 (.advance () (works "")) ++
    [.change (.foreign later)]

theorem begins : PushBegins repository start where
  idle := fun _ => rfl
  ended := rfl
  unmade := by
    rintro sha ⟨tip, same, ancestor⟩
    cases same
    rcases Relation.ReflTransGen.cases_tail ancestor with rfl | ⟨parent, _, member⟩
    · decide
    · have root : repository.graph.parents base = [] := by decide
      rw [root] at member
      cases member
  cloned := fun _ => CommitGraph.contains_head base
  sent := rfl
  unclaimed := fun _ _ => rfl

end InterruptedPush

/--
A run that crashed after its commit is taken up again: its commit reaches the
branch and the manifest, and stays on the branch under the next push.
-/
theorem interrupted_push_once :
    ∃ final,
      (pushMachine Unit InterruptedPush.env InterruptedPush.repository Sample.repair "fix").Runs
        InterruptedPush.start final ∧
      final.world.remote = some InterruptedPush.later ∧
      InterruptedPush.repository.graph.Contains final.world.remote InterruptedPush.commit ∧
      Manifested Sample.repair final.world InterruptedPush.commit := by
  have evaluated : ((InterruptedPush.checks.replay InterruptedPush.start
      InterruptedPush.schedule).any fun final =>
        decide (final.world.remote = some InterruptedPush.later) &&
          final.ended.any fun finished =>
            finished.1.request.runtime.isSome &&
              match finished.2 with
              | .ok result => decide (result = InterruptedPush.result)
              | .error _ => false) = true := by
    decide +kernel
  simp only [Option.any_eq_true, Bool.and_eq_true, decide_eq_true_eq, List.any_eq_true]
    at evaluated
  obtain ⟨final, replayed, remote, ⟨input, end_⟩, member, queue, success⟩ := evaluated
  have run := InterruptedPush.checks.runs_of_replay replayed
  cases end_ with
  | error message =>
      cases success
  | ok result =>
      have same : result = InterruptedPush.result := of_decide_eq_true success
      subst same
      obtain ⟨sha, named, contained, manifested⟩ :=
        (commit_and_push_exactly_once InterruptedPush.begins run
          (TransitionSystem.Reaches.refl final)).2.2 input InterruptedPush.result member rfl
      cases named
      exact ⟨final, run, remote, contained, manifested queue⟩

end MrAgent
