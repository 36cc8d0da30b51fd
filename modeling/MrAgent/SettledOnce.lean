import MrAgent.MemorySettlement

namespace MrAgent

open UniqueTable TransitionSystem

/-!
# Every hit is counted once

Hits are recorded and settled in any order, with and without a pipeline, while
memories change their status. The counters of a memory are at all times the
numbers of its settled hits. The status is another matter: a settlement writes
the one that the new counters give, whatever the old one was.
-/

/-- The operations on hits, and the status changes in between. -/
inductive SettlementOp where
  | settlePipeline (taskId : String) (event : SettlingPipeline) (now : String)
  | settleWithout (taskId now : String)
  | record (attemptId taskId : String) (memoryIds : List String) (mode : RetrievalMode)
  | changeStatus (memoryId : String) (status : MemoryStatus) (reason : String)
      (expectedStatuses : Option (List MemoryStatus)) (changedAt : String)

namespace SettlementOp

def step (settings : MemorySettings) (store : MemoryStore) : SettlementOp → MemoryStore
  | settlePipeline taskId event now =>
    (MemoryStore.settleImmediatePipeline settings store taskId event now).1
  | settleWithout taskId now => (store.settleWithoutValidation taskId now).1
  | record attemptId taskId memoryIds mode =>
    store.recordRetrievalHits attemptId taskId memoryIds mode
  | changeStatus memoryId status reason expectedStatuses changedAt =>
    (store.updateMemoryStatus memoryId status reason expectedStatuses changedAt).1

/-- An attempt is named after its task, so no other task has hits of it. -/
def allowed (store : MemoryStore) : SettlementOp → Prop
  | record attemptId taskId _ _ =>
    ∀ hit ∈ store.hits.rows, hit.attemptId = attemptId → hit.taskId = taskId
  | _ => True

end SettlementOp

namespace MemoryStore

/-- An injected hit of the memory that a pipeline has settled. -/
def countsAttempt (memoryId : String) (hit : MemoryHit) : Bool :=
  hit.mode = .inject && hit.memoryId = memoryId &&
    (hit.outcome = some .success || hit.outcome = some .failed)

/-- An injected hit of the memory that a successful pipeline has settled. -/
def countsSuccess (memoryId : String) (hit : MemoryHit) : Bool :=
  hit.mode = .inject && hit.memoryId = memoryId && hit.outcome = some .success

/-- The memory has counted its hits and is scored by its counters. -/
structure Counted (settings : MemorySettings) (hits : List MemoryHit) (memory : RepairMemory) :
    Prop where
  attempts : memory.settledAttempts = hits.countP (countsAttempt memory.memoryId)
  successes : memory.immediateSuccesses = hits.countP (countsSuccess memory.memoryId)
  scored : memory.confidence = confidenceOf settings memory.scope memory.supportEpisodeCount
    memory.settledAttempts memory.immediateSuccesses

/-- The invariant of all settlements. -/
structure Settled (settings : MemorySettings) (store : MemoryStore) : Prop where
  counted : ∀ memory ∈ store.memories.rows, Counted settings store.hits.rows memory
  pending : ∀ hit ∈ store.hits.rows, hit.settledAt = none → hit.outcome = none
  owned : ∀ first ∈ store.hits.rows, ∀ second ∈ store.hits.rows,
    first.attemptId = second.attemptId → first.taskId = second.taskId

/-! ## Hits that are marked -/

section Marked

variable {settings : MemorySettings} {store : MemoryStore}

end Marked

variable {settings : MemorySettings}

/-- No memory that was not active is active afterwards. -/
def RetiredKept (before after : MemoryStore) : Prop :=
  ∀ memory ∈ before.memories.rows, memory.status ≠ .active →
    ∀ later ∈ after.memories.rows, later.memoryId = memory.memoryId → later.status ≠ .active

variable (settings : MemorySettings)

namespace RetiredMemory

/-- A memory that has been used once. -/
def memory (status : MemoryStatus) : RepairMemory where
  language := "cpp"
  buildSystem := "cmake"
  failureFamily := "missing_header"
  rootCauseClass := "missing_dependency"
  repairActionClass := "add_dependency"
  problemPattern := "缺少头文件"
  applicability := []
  antiConditions := []
  repairGuidance := "补充依赖"
  validationGuidance := []
  memoryId := "mem:project:demo:k"
  scope := .project
  scopeKey := "demo"
  patternKey := "k"
  patternVersion := 1
  diagnosticFingerprint := ""
  causalTokens := []
  confidence := 60 / 100
  supportEpisodeCount := 1
  supportProjectCount := 1
  settledAttempts := 0
  immediateSuccesses := 0
  status := status

def store (status : MemoryStatus) : MemoryStore :=
  { MemoryStore.empty with
    memories := { rows := [memory status], unique := List.pairwise_singleton _ _ }
    hits :=
      { rows :=
          [{ attemptId := "attempt:1", taskId := "t", memoryId := "mem:project:demo:k"
             mode := .inject }]
        unique := List.pairwise_singleton _ _ } }

def pipeline : SettlingPipeline :=
  { pipelineId := 7, sha := "c", status := "success" }

theorem settled (status : MemoryStatus) : Settled {} (store status) where
  counted := by
    intro memory member
    obtain rfl := List.mem_singleton.mp member
    refine ⟨rfl, rfl, ?_⟩
    simp only [RetiredMemory.memory, confidenceOf, baseConfidence]
    norm_num
  pending := by
    intro hit member _
    obtain rfl := List.mem_singleton.mp member
    rfl
  owned := by
    intro first left second right _
    obtain rfl := List.mem_singleton.mp left
    obtain rfl := List.mem_singleton.mp right
    rfl

end RetiredMemory

end MemoryStore

end MrAgent
