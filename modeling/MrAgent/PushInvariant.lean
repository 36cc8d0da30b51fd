import MrAgent.PushWorld
import MrAgent.RepairManifest

namespace MrAgent

open Interruptible

/-!
# The invariant of all pushes of a task

Every commit of an attempt is a child of the attempt's base, which is on the
branch when the commit is made. A push of such a commit is a fast-forward only
while no other child of the base is on the branch, so the branch never holds
two commits of one attempt. The module says what each call and each change of
the world does to the branch, the clones, the ledger and the manifest.
-/

section Definitions

variable {Worker : Type}

/-- The commit is an entry of the task's manifest. -/
def Manifested (task : TaskId) (world : PushWorld Worker) (sha : String) : Prop :=
  ∃ manifest, (world.broker.tasks task).repairCommitManifest = some manifest ∧
    ∃ entry ∈ manifest.entries, entry.commitSha = sha

/-- A success names a commit of the branch; one of a queue run is also in the manifest. -/
def Reported
    (repository : Repository)
    (task : TaskId)
    (queue : Bool)
    (world : PushWorld Worker)
    (result : PushResult) : Prop :=
  result.status = .success →
    ∃ sha, result.commitSha = some sha ∧ repository.graph.Contains world.remote sha ∧
      (queue = true → Manifested task world sha)

/-- A commit that is on the branch, or a commit of an attempt that starts from the branch. -/
def Pushable (repository : Repository) (world : PushWorld Worker) (commit : String) : Prop :=
  repository.graph.Contains world.remote commit ∨
    ∃ attempt, repository.origin commit = some attempt ∧
      repository.graph.parents commit = [attempt.baseSha] ∧
      repository.graph.Contains world.remote attempt.baseSha

/-- The result that the ledger stores under a key. -/
def storedResult (env : PushEnv) (broker : Broker) (key : String) : PushResult :=
  env.results.result ((broker.effects key).result.getD "")

/-- The invariant of all runs of a task. -/
structure PushInv
    (env : PushEnv)
    (repository : Repository)
    (task : TaskId)
    (world : PushWorld Worker) : Prop where
  child : ∀ commit attempt, repository.graph.Contains world.remote commit →
    repository.origin commit = some attempt → repository.graph.parents commit = [attempt.baseSha]
  once : ∀ first second attempt, repository.graph.Contains world.remote first →
    repository.graph.Contains world.remote second → repository.origin first = some attempt →
      repository.origin second = some attempt → first = second
  cloned : ∀ worker, Pushable repository world (world.clone worker).head
  sent : ∀ commit ∈ world.sent, Pushable repository world commit
  stored : ∀ key, IsPushKey task key → (world.broker.effects key).status = some .completed →
    Reported repository task true world (storedResult env world.broker key)

/-- The branch and the manifest lose nothing. -/
structure PushGrows
    (repository : Repository)
    (task : TaskId)
    (before after : PushWorld Worker) : Prop where
  remote : repository.graph.Extends before.remote after.remote
  manifest : ManifestGrows (before.broker.tasks task).repairCommitManifest
    (after.broker.tasks task).repairCommitManifest

end Definitions

namespace PushGrows

variable {Worker : Type} {repository : Repository} {task : TaskId}
variable {before after : PushWorld Worker}

theorem refl (world : PushWorld Worker) : PushGrows repository task world world :=
  ⟨CommitGraph.Extends.refl _, ManifestGrows.refl _⟩

theorem trans
    {last : PushWorld Worker}
    (left : PushGrows repository task before after)
    (right : PushGrows repository task after last) :
    PushGrows repository task before last :=
  ⟨left.remote.trans right.remote, left.manifest.trans right.manifest⟩

theorem manifested
    (grows : PushGrows repository task before after)
    {sha : String}
    (manifested : Manifested task before sha) :
    Manifested task after sha := by
  obtain ⟨manifest, stored, entry, member, named⟩ := manifested
  obtain ⟨later, laterStored, _, entries, _⟩ := grows.manifest manifest stored
  exact ⟨later, laterStored, entry, entries.subset member, named⟩

theorem reported
    (grows : PushGrows repository task before after)
    {queue : Bool}
    {result : PushResult}
    (reported : Reported repository task queue before result) :
    Reported repository task queue after result := by
  intro success
  obtain ⟨sha, named, contained, manifested⟩ := reported success
  exact ⟨sha, named, grows.remote sha contained, fun queued => grows.manifested (manifested queued)⟩

theorem pushable
    (grows : PushGrows repository task before after)
    {commit : String}
    (pushable : Pushable repository before commit) :
    Pushable repository after commit := by
  rcases pushable with contained | ⟨attempt, origin, single, based⟩
  · exact Or.inl (grows.remote commit contained)
  · exact Or.inr ⟨attempt, origin, single, grows.remote _ based⟩

end PushGrows

/-! ## What broker calls do to records and manifests -/

namespace Broker

variable (s : Broker)

variable {other : String}

theorem claimEffect_completed
    (key : String) (task : TaskId) (lease : Option MrLease) (metadata : String) (now : Time)
    (completed :
      ((s.claimEffect key task lease metadata now).1.effects other).status = some .completed) :
    (s.claimEffect key task lease metadata now).1.effects other = s.effects other := by
  revert completed
  unfold claimEffect
  split
  · exact fun _ => rfl
  dsimp only
  split
  · exact fun _ => rfl
  · exact fun _ => rfl
  · intro completed
    by_cases same : other = key
    · subst other
      simp [updTask] at completed
    · simp [updTask, same]

theorem updateEffect_completed
    (key : String) (lease : Option MrLease) (metadata : String) (now : Time)
    (completed : ((s.updateEffect key lease metadata now).1.effects other).status = some .completed) :
    (s.updateEffect key lease metadata now).1.effects other = s.effects other := by
  revert completed
  unfold updateEffect
  split
  · exact fun _ => rfl
  dsimp only
  split
  · exact fun _ => rfl
  · rename_i started
    intro completed
    by_cases same : other = key
    · subst other
      simp only [ne_eq, not_not] at started
      simp [started] at completed
    · simp [same]

theorem completeEffect_completed
    (key : String) (task : TaskId) (lease : Option MrLease) (result : String) (now : Time)
    (other : String) :
    (s.completeEffect key task lease result now).1.effects other = s.effects other ∨
      other = key ∧
        ((s.completeEffect key task lease result now).1.effects other).result = some result := by
  unfold completeEffect
  split
  · exact Or.inl rfl
  dsimp only
  split
  · exact Or.inl rfl
  · by_cases same : other = key
    · subst other
      refine Or.inr ⟨rfl, ?_⟩
      split <;> simp [updTask]
    · refine Or.inl ?_
      split <;> simp [updTask, same]

theorem appendRepairCommit_effects
    (task : TaskId) (lease : Option MrLease) (args : AppendArgs) (now : Time) :
    (s.appendRepairCommit task lease args now).1.effects = s.effects := by
  unfold appendRepairCommit
  split
  · rfl
  · unfold appendRepairCommitScript
    split <;> rfl

end Broker

variable {code : Int} {stored : Option RepairCommitManifest}

theorem RepairCommitManifest.extend_mem
    {manifest : RepairCommitManifest}
    {entry : RepairCommitEntry}
    (reply : manifest.extend entry = .stored code stored) :
    (code = 0 ∧ entry ∈ manifest.entries) ∨
      code = 1 ∧ ∃ next, stored = some next ∧ entry ∈ next.entries := by
  unfold extend at reply
  split at reply
  · rename_i last
    cases reply
    exact Or.inl ⟨rfl, List.mem_of_getLast? last⟩
  · split at reply
    · cases reply
    · split at reply
      · cases reply
      · split at reply
        · cases reply
        · cases reply
          exact Or.inr ⟨rfl, _, rfl, by simp⟩

variable {args : AppendArgs} {task : TaskId} (s : Broker) {lease : Option MrLease}

theorem Broker.appendReply_mem
    (reply : s.appendReply task lease args = .stored code stored) :
    (code = 0 ∧ ∃ manifest, (s.tasks task).repairCommitManifest = some manifest ∧
        args.entry ∈ manifest.entries) ∨
      code = 1 ∧ ∃ next, stored = some next ∧ args.entry ∈ next.entries := by
  unfold appendReply at reply
  dsimp only at reply
  split at reply
  · cases reply
  split at reply
  · cases reply
  split at reply
  · cases reply
  split at reply
  · cases reply
  split at reply
  · split at reply
    · cases reply
    · -- A new manifest has no entry that could be repeated.
      rcases RepairCommitManifest.extend_mem reply with ⟨_, repeated⟩ | grown
      · cases repeated
      · exact Or.inr grown
  · rename_i manifest present
    split at reply
    · cases reply
    split at reply
    · cases reply
    split at reply
    · cases reply
    rcases RepairCommitManifest.extend_mem reply with ⟨unchanged, repeated⟩ | grown
    · exact Or.inl ⟨unchanged, manifest, present, repeated⟩
    · exact Or.inr grown

theorem Broker.appendRepairCommit_mem
    {now : Time}
    (reply : (s.appendRepairCommit task lease args now).2 = .stored code stored) :
    ∃ manifest,
      ((s.appendRepairCommit task lease args now).1.tasks task).repairCommitManifest =
        some manifest ∧ args.entry ∈ manifest.entries := by
  revert reply
  unfold appendRepairCommit
  split
  · intro reply
    cases reply
  unfold appendRepairCommitScript
  split
  · rename_i next answered
    intro _
    rcases s.appendReply_mem answered with ⟨impossible, _⟩ | ⟨_, later, rfl, member⟩
    · cases impossible
    · exact ⟨later, by simp, member⟩
  · rename_i other
    intro answered
    rcases s.appendReply_mem answered with ⟨_, present⟩ | ⟨rfl, _⟩
    · exact present
    · exact absurd answered (other _)

/-! ## Changes of the world -/

namespace PushInv

variable {Worker : Type}
variable {env : PushEnv} {repository : Repository} {task : TaskId} {world : PushWorld Worker}

theorem setBroker
    (inv : PushInv env repository task world)
    {broker : Broker}
    (grows : PushGrows repository task world { world with broker := broker })
    (stored : ∀ key, IsPushKey task key → (broker.effects key).status = some .completed →
      broker.effects key = world.broker.effects key ∨
        Reported repository task true world (storedResult env broker key)) :
    PushInv env repository task { world with broker := broker } where
  child := inv.child
  once := inv.once
  cloned := inv.cloned
  sent := inv.sent
  stored := by
    intro key named completed
    apply grows.reported
    rcases stored key named completed with same | reported
    · change (broker.effects key).status = some .completed at completed
      have old := inv.stored key named (same ▸ completed)
      unfold storedResult at old ⊢
      rw [same]
      exact old
    · exact reported

theorem setClone
    [DecidableEq Worker]
    (inv : PushInv env repository task world)
    (worker : Worker)
    {clone : Clone}
    (pushable : Pushable repository world clone.head) :
    PushInv env repository task (world.setClone worker clone) where
  child := inv.child
  once := inv.once
  cloned := by
    intro other
    by_cases same : other = worker
    · subst other
      have self : (world.setClone worker clone).clone worker = clone := by
        simp [PushWorld.setClone]
      rw [self]
      exact pushable
    · have kept : (world.setClone worker clone).clone other = world.clone other := by
        simp [PushWorld.setClone, same]
      rw [kept]
      exact inv.cloned other
  sent := inv.sent
  stored := inv.stored

theorem send
    (inv : PushInv env repository task world)
    {commit : String}
    (pushable : Pushable repository world commit) :
    PushInv env repository task { world with sent := commit :: world.sent } where
  child := inv.child
  once := inv.once
  cloned := inv.cloned
  sent := by
    intro other member
    rcases List.mem_cons.mp member with same | old
    · rw [same]
      exact pushable
    · exact inv.sent other old
  stored := inv.stored

end PushInv

theorem pushGrows_setRemote
    {Worker : Type}
    {repository : Repository}
    (task : TaskId)
    {world : PushWorld Worker}
    {head : String}
    (forward : repository.graph.FastForward world.remote head) :
    PushGrows repository task world (world.setRemote head) :=
  ⟨forward.extends, ManifestGrows.refl _⟩

namespace PushInv

variable {Worker : Type}
variable {env : PushEnv} {repository : Repository} {task : TaskId} {world : PushWorld Worker}

variable {head : String}

theorem setRemote
    (inv : PushInv env repository task world)
    (forward : repository.graph.FastForward world.remote head)
    (child : ∀ commit attempt, repository.graph.Contains (some head) commit →
      repository.origin commit = some attempt →
        repository.graph.parents commit = [attempt.baseSha])
    (once : ∀ first second attempt, repository.graph.Contains (some head) first →
      repository.graph.Contains (some head) second → repository.origin first = some attempt →
        repository.origin second = some attempt → first = second) :
    PushInv env repository task (world.setRemote head) := by
  have grows := pushGrows_setRemote task forward
  exact {
    child := child
    once := once
    cloned := fun worker => grows.pushable (inv.cloned worker)
    sent := fun commit member => grows.pushable (inv.sent commit member)
    stored := fun key named completed => grows.reported (inv.stored key named completed) }

theorem foreign
    (inv : PushInv env repository task world)
    (forward : repository.graph.FastForward world.remote head)
    (others : ∀ commit, repository.graph.Contains (some head) commit →
      repository.graph.Contains world.remote commit ∨ repository.origin commit = none) :
    PushInv env repository task (world.setRemote head) := by
  have old : ∀ commit attempt, repository.graph.Contains (some head) commit →
      repository.origin commit = some attempt → repository.graph.Contains world.remote commit := by
    intro commit attempt contained origin
    rcases others commit contained with present | unmade
    · exact present
    · rw [unmade] at origin
      cases origin
  apply inv.setRemote forward
  · intro commit attempt contained origin
    exact inv.child commit attempt (old commit attempt contained origin) origin
  · intro first second attempt left right leftOrigin rightOrigin
    exact inv.once first second attempt (old first attempt left leftOrigin)
      (old second attempt right rightOrigin) leftOrigin rightOrigin

theorem push
    (inv : PushInv env repository task world)
    {commit : String}
    (pushable : Pushable repository world commit)
    (forward : repository.graph.FastForward world.remote commit) :
    PushInv env repository task (world.setRemote commit) := by
  rcases pushable with contained | ⟨attempt, origin, single, based⟩
  · have same : world.setRemote commit = world := by
      unfold PushWorld.setRemote
      rw [← forward.head_eq contained]
    rw [same]
    exact inv
  -- Only the pushed commit is new, and a sibling of it would not be a fast-forward.
  have added : ∀ other, repository.graph.Contains (some commit) other →
      other = commit ∨ repository.graph.Contains world.remote other :=
    fun other contained => forward.contains_child single based contained
  have alone : ∀ other, repository.origin other = some attempt →
      repository.graph.Contains (some commit) other → other = commit := by
    intro other sameOrigin contained
    rcases added other contained with equal | old
    · exact equal
    · exact forward.sibling_eq single (inv.child other attempt old sameOrigin) old
  apply inv.setRemote forward
  · intro other made contained madeOrigin
    rcases added other contained with rfl | old
    · rw [origin] at madeOrigin
      cases madeOrigin
      exact single
    · exact inv.child other made old madeOrigin
  · intro first second made left right leftOrigin rightOrigin
    by_cases same : made = attempt
    · subst made
      rw [alone first leftOrigin left, alone second rightOrigin right]
    · have old : ∀ other, repository.origin other = some made →
          repository.graph.Contains (some commit) other →
            repository.graph.Contains world.remote other := by
        intro other otherOrigin contained
        rcases added other contained with rfl | old
        · rw [origin] at otherOrigin
          cases otherOrigin
          exact absurd rfl same
        · exact old
      exact inv.once first second made (old first leftOrigin left) (old second rightOrigin right)
        leftOrigin rightOrigin

end PushInv

/-! ## Calls -/

/-- The calls that only read. -/
def PushCall.reads : PushCall → Bool
  | addAll | commit .. | push _ | claimEffect .. | updateEffect .. | completeEffect ..
  | appendRepairCommit .. => false
  | _ => true

/-- The calls that write the clone of their worker. -/
def PushCall.moves : PushCall → Bool
  | addAll | commit .. => true
  | _ => false

/-- The calls that keep the invariant only where the tool makes them. -/
def PushCall.guarded : PushCall → Bool
  | commit .. | completeEffect .. => true
  | _ => false

theorem pushGrows_step
    {Worker : Type}
    (repository : Repository)
    (task : TaskId)
    (world : PushWorld Worker)
    (op : Op) :
    PushGrows repository task world { world with broker := world.broker.step op } :=
  ⟨CommitGraph.Extends.refl _, ManifestGrows.of_step (world.broker.step_manifestStep op task)⟩

section Calls

variable {Worker : Type} [DecidableEq Worker]
variable {env : PushEnv} {repository : Repository} {task : TaskId} {worker : Worker}

variable {call : PushCall}

theorem perform_reads
    (reads : call.reads = true)
    (answer : call.Answer)
    (world : PushWorld Worker) :
    (PushWorld.perform repository worker call answer world).1 = world := by
  cases call with
  | addAll => cases reads
  | commit attempt message => cases reads
  | push branch => cases reads
  | claimEffect key task lease => cases reads
  | updateEffect key lease metadata => cases reads
  | completeEffect key task lease result => cases reads
  | appendRepairCommit task lease args => cases reads
  | stagedChanges => cases answer <;> rfl
  | revParse revision => cases answer <;> rfl
  | lsRemote branch => cases answer <;> rfl
  | _ => rfl

variable {world : PushWorld Worker} {answer : call.Answer}

theorem perform_grows
    (task : TaskId)
    (permitted : PushWorld.permits repository worker call answer world) :
    PushGrows repository task world (PushWorld.perform repository worker call answer world).1 ∧
      ∀ other, other ≠ worker →
        (PushWorld.perform repository worker call answer world).1.clone other =
          world.clone other := by
  have moved : ∀ clone, PushGrows repository task world (world.setClone worker clone) ∧
      ∀ other, other ≠ worker → (world.setClone worker clone).clone other = world.clone other := by
    intro clone
    refine ⟨⟨CommitGraph.Extends.refl _, ManifestGrows.refl _⟩, ?_⟩
    intro other different
    simp [PushWorld.setClone, different]
  have unchanged : PushGrows repository task world world ∧
      ∀ other, other ≠ worker → world.clone other = world.clone other :=
    ⟨PushGrows.refl world, fun _ _ => rfl⟩
  by_cases reads : call.reads = true
  · rw [perform_reads reads answer world]
    exact unchanged
  cases call with
  | addAll =>
      cases answer with
      | error text => exact unchanged
      | ok staged => exact moved _
  | commit attempt message =>
      cases answer with
      | made sha valid output => exact moved _
      | failed output => exact unchanged
  | push branch =>
      cases answer with
      | landed output => exact ⟨pushGrows_setRemote task permitted, fun _ _ => rfl⟩
      | pending output =>
          exact ⟨⟨CommitGraph.Extends.refl _, ManifestGrows.refl _⟩, fun _ _ => rfl⟩
      | lost output => exact unchanged
  | claimEffect key owner lease =>
      exact ⟨pushGrows_step repository task world (.effect (.claim key owner lease "{}" answer)),
        fun _ _ => rfl⟩
  | updateEffect key lease metadata =>
      exact ⟨pushGrows_step repository task world (.effect (.update key lease metadata answer)),
        fun _ _ => rfl⟩
  | completeEffect key owner lease result =>
      exact ⟨pushGrows_step repository task world (.effect (.complete key owner lease result answer)),
        fun _ _ => rfl⟩
  | appendRepairCommit owner lease args =>
      exact ⟨pushGrows_step repository task world (.manifest (.append owner lease args answer)),
        fun _ _ => rfl⟩
  | _ => exact absurd rfl reads

theorem perform_clone
    (still : call.moves = false)
    (answer : call.Answer)
    (world : PushWorld Worker) :
    (PushWorld.perform repository worker call answer world).1.clone = world.clone := by
  by_cases reads : call.reads = true
  · rw [perform_reads reads answer world]
  cases call with
  | addAll => cases still
  | commit attempt message => cases still
  | push branch => cases answer <;> rfl
  | claimEffect key owner lease => rfl
  | updateEffect key lease metadata => rfl
  | completeEffect key owner lease result => rfl
  | appendRepairCommit owner lease args => rfl
  | _ => exact absurd rfl reads

/-- Calls other than committing and completing an effect keep the invariant by themselves. -/
theorem perform_inv
    (free : call.guarded = false)
    (permitted : PushWorld.permits repository worker call answer world)
    (inv : PushInv env repository task world) :
    PushInv env repository task (PushWorld.perform repository worker call answer world).1 := by
  by_cases reads : call.reads = true
  · rw [perform_reads reads answer world]
    exact inv
  have grows := (perform_grows task permitted).1
  cases call with
  | addAll =>
      cases answer with
      | error text => exact inv
      | ok staged => exact inv.setClone worker (inv.cloned worker)
  | commit attempt message => cases free
  | push branch =>
      cases answer with
      | landed output => exact inv.push (inv.cloned worker) permitted
      | pending output => exact inv.send (inv.cloned worker)
      | lost output => exact inv
  | claimEffect key owner lease =>
      apply inv.setBroker grows
      intro other _ completed
      exact Or.inl (world.broker.claimEffect_completed key owner lease "{}" answer completed)
  | updateEffect key lease metadata =>
      apply inv.setBroker grows
      intro other _ completed
      exact Or.inl (world.broker.updateEffect_completed key lease metadata answer completed)
  | completeEffect key owner lease result => cases free
  | appendRepairCommit owner lease args =>
      apply inv.setBroker grows
      intro other _ _
      exact Or.inl (congrFun (world.broker.appendRepairCommit_effects owner lease args answer) other)
  | _ => exact absurd rfl reads

end Calls

end MrAgent
