import Mathlib
import MrAgent.GroupedList
import MrAgent.RepairMemoryStore
import MrAgent.TransitionSystem

namespace MrAgent

open UniqueTable TransitionSystem

/-!
# Settling the hits of a repair

When a repair is followed by a pipeline, every pending injected hit of the
task is settled by it, and each memory that was injected counts the attempt
and gets a new confidence. A repair without a pipeline settles its hits
without counting.
-/

/-- The part of `RepairMemorySettings` that scores memories. -/
structure MemorySettings where
  globalMinProjects : Nat := 2
  needsReviewMinAttempts : Nat := 3
  needsReviewConfidence : Rat := 45 / 100
  projectInitialConfidence : Rat := 60 / 100
  globalInitialConfidence : Rat := 70 / 100
  supportConfidenceIncrement : Rat := 5 / 100
  successConfidenceIncrement : Rat := 3 / 100
  failureConfidenceDecrement : Rat := 2 / 100

/-- The event that settles a repair. -/
structure SettlingPipeline where
  pipelineId : Nat
  sha : String
  status : String

/-- `pipeline_status.lower() == "success"`. -/
def SettlingPipeline.isSuccess (event : SettlingPipeline) : Bool :=
  event.status.toList.map Char.toLower = "success".toList

structure SettlementSummary where
  settledAttempts : Nat
  settledHits : Nat
deriving DecidableEq

/-- The confidence that the support of a memory gives it before any attempt. -/
def baseConfidence (settings : MemorySettings) (scope : MemoryScope) (supportEpisodes : Nat) : Rat :=
  match scope with
  | .global => min (80 / 100) (settings.globalInitialConfidence +
      (supportEpisodes - 2 : Nat) * settings.supportConfidenceIncrement)
  | .project => min (80 / 100) (settings.projectInitialConfidence +
      (supportEpisodes - 1 : Nat) * settings.supportConfidenceIncrement)

/-- The confidence that support and outcomes give a memory. -/
def confidenceOf
    (settings : MemorySettings)
    (scope : MemoryScope)
    (supportEpisodes settled successes : Nat) : Rat :=
  max (30 / 100) (min (95 / 100) (baseConfidence settings scope supportEpisodes +
    successes * settings.successConfidenceIncrement -
    ((settled : Rat) - successes) * settings.failureConfidenceDecrement))

/-- The status that goes with a confidence. -/
def reviewStatus (settings : MemorySettings) (settled : Nat) (confidence : Rat) : MemoryStatus :=
  if settings.needsReviewMinAttempts ≤ settled ∧ confidence < settings.needsReviewConfidence then
    .needsReview
  else .active

/-- `_recompute_confidence`. -/
def recomputeConfidence
    (settings : MemorySettings)
    (row : Option RepairMemory)
    (successDelta failureDelta : Nat) : Rat × MemoryStatus :=
  match row with
  | none => (0, .disabled)
  | some memory =>
    let settled := memory.settledAttempts + successDelta + failureDelta
    let successes := memory.immediateSuccesses + successDelta
    let confidence :=
      confidenceOf settings memory.scope memory.supportEpisodeCount settled successes
    (confidence, reviewStatus settings settled confidence)

namespace MemoryStore

/-- One attempt is counted for one memory. -/
def settleMemory
    (settings : MemorySettings)
    (event : SettlingPipeline)
    (now : String)
    (store : MemoryStore)
    (memoryId : String) : Option MemoryStore := do
  let successDelta := if event.isSuccess then 1 else 0
  let failureDelta := if event.isSuccess then 0 else 1
  let (confidence, status) :=
    recomputeConfidence settings (store.loadMemory memoryId) successDelta failureDelta
  let changed ← store.setStatus memoryId fun memory =>
    { memory with
      confidence := confidence
      settledAttempts := memory.settledAttempts + 1
      immediateSuccesses := memory.immediateSuccesses + successDelta
      status := status
      updatedAt := now }
  let eventType :=
    if event.isSuccess then "reinforced"
    else if status = .needsReview then "needs_review"
    else "settled"
  return changed.audit memoryId eventType s!"immediate pipeline {event.status}" now

/-- The hits of an attempt that nobody has settled. -/
def unsettled (attemptId : String) (hit : MemoryHit) : Bool :=
  hit.attemptId = attemptId && hit.settledAt = none

/-- A change of the hits that keeps what they are hits of. -/
def markHits
    (store : MemoryStore)
    (attemptId : String)
    (mark : MemoryHit → MemoryHit)
    (same : ∀ hit, ((mark hit).attemptId, (mark hit).memoryId) = (hit.attemptId, hit.memoryId)) :
    MemoryStore :=
  { store with
    hits := store.hits.modify (unsettled attemptId) mark (by
      intro first second apart
      have key : ∀ hit, ((Table.changed (unsettled attemptId) mark hit).attemptId,
          (Table.changed (unsettled attemptId) mark hit).memoryId) =
            (hit.attemptId, hit.memoryId) := by
        intro hit
        unfold Table.changed
        split
        · exact same hit
        · rfl
      simp only [MemoryHit.indexes, keyed, key] at apart ⊢
      exact apart) }

/-- What a pipeline writes into a hit. -/
def pipelineMark (event : SettlingPipeline) (now : String) (hit : MemoryHit) : MemoryHit :=
  { hit with
    immediatePipelineId := some event.pipelineId
    immediatePipelineSha := some event.sha
    immediatePipelineStatus := some event.status
    outcome := some (if event.isSuccess then .success else .failed)
    settledAt := some now }

/-- What the end without a pipeline writes into a hit. -/
def plainMark (now : String) (hit : MemoryHit) : MemoryHit :=
  { hit with outcome := some .noValidation, settledAt := some now }

/-- The pending injected hits of a task. -/
def isPending (taskId : String) (hit : MemoryHit) : Bool :=
  hit.taskId = taskId && hit.mode = .inject && hit.settledAt = none

/-- The rows that both settlements start from. -/
def pendingHits (store : MemoryStore) (taskId : String) : List MemoryHit :=
  store.hits.rows.filter (isPending taskId)

/-- The keys of `attempts`, in the order of their first hit. -/
def attemptsOf (pending : List MemoryHit) : List String :=
  (pending.map (·.attemptId)).eraseDups

/-- The memories of one attempt. -/
def memoryIdsOf (pending : List MemoryHit) (attemptId : String) : List String :=
  (pending.filter (·.attemptId = attemptId)).map (·.memoryId)

/-- One attempt is settled by a pipeline. -/
def settleAttempt
    (settings : MemorySettings)
    (event : SettlingPipeline)
    (now : String)
    (pending : List MemoryHit)
    (store : MemoryStore)
    (attemptId : String) : Option MemoryStore :=
  (memoryIdsOf pending attemptId).eraseDups.foldlM (settleMemory settings event now)
    (store.markHits attemptId (pipelineMark event now) fun _ => rfl)

/-- `settle_immediate_pipeline`. -/
def settleImmediatePipeline
    (settings : MemorySettings)
    (store : MemoryStore)
    (taskId : String)
    (event : SettlingPipeline)
    (now : String) : MemoryStore × SettlementSummary :=
  let pending := store.pendingHits taskId
  if pending = [] then (store, ⟨0, 0⟩)
  else
    store.commit ⟨0, 0⟩ do
      let attempts := attemptsOf pending
      let settled ← attempts.foldlM (settleAttempt settings event now pending) store
      return (settled,
        ⟨attempts.length, (attempts.map fun attempt => (memoryIdsOf pending attempt).length).sum⟩)

/-- `settle_without_validation`. -/
def settleWithoutValidation
    (store : MemoryStore)
    (taskId now : String) : MemoryStore × SettlementSummary :=
  let pending := store.pendingHits taskId
  (pending.foldl
      (fun current hit => current.markHits hit.attemptId (plainMark now) fun _ => rfl) store,
    ⟨(attemptsOf pending).length, pending.length⟩)

end MemoryStore

/-! ## What a settlement does to the rows -/

namespace RepairMemory

/-- A memory after `count` of its attempts have been counted. -/
def settle
    (settings : MemorySettings)
    (success : Bool)
    (now : String)
    (count : Nat)
    (memory : RepairMemory) : RepairMemory :=
  if count = 0 then memory
  else
    let settled := memory.settledAttempts + count
    let successes := memory.immediateSuccesses + (if success then count else 0)
    let confidence :=
      confidenceOf settings memory.scope memory.supportEpisodeCount settled successes
    { memory with
      confidence := confidence
      settledAttempts := settled
      immediateSuccesses := successes
      status := reviewStatus settings settled confidence
      updatedAt := now }

variable {settings : MemorySettings} {success : Bool} {now : String}

@[simp]
theorem settle_zero (memory : RepairMemory) : memory.settle settings success now 0 = memory := by
  simp [settle]

theorem settle_settle (first second : Nat) (memory : RepairMemory) :
    (memory.settle settings success now first).settle settings success now second =
      memory.settle settings success now (first + second) := by
  cases first with
  | zero =>
      rw [settle_zero, Nat.zero_add]
  | succ first =>
      cases second with
      | zero =>
          rw [settle_zero, Nat.add_zero]
      | succ second =>
          cases success <;> simp [settle, Nat.add_assoc]

@[simp]
theorem settle_memoryId (count : Nat) (memory : RepairMemory) :
    (memory.settle settings success now count).memoryId = memory.memoryId := by
  unfold settle
  split <;> rfl

@[simp]
theorem settle_supportEpisodeCount (count : Nat) (memory : RepairMemory) :
    (memory.settle settings success now count).supportEpisodeCount =
      memory.supportEpisodeCount := by
  unfold settle
  split <;> rfl

@[simp]
theorem settle_settledAttempts (count : Nat) (memory : RepairMemory) :
    (memory.settle settings success now count).settledAttempts =
      memory.settledAttempts + count := by
  unfold settle
  split
  · rename_i zero
    rw [zero, Nat.add_zero]
  · rfl

@[simp]
theorem settle_immediateSuccesses (count : Nat) (memory : RepairMemory) :
    (memory.settle settings success now count).immediateSuccesses =
      memory.immediateSuccesses + if success then count else 0 := by
  unfold settle
  split
  · rename_i zero
    simp [zero]
  · rfl

end RepairMemory

namespace MemoryStore

variable {settings : MemorySettings} {event : SettlingPipeline} {now : String}
variable {store next : MemoryStore}

/-- Only the memories, their hits and the audit change. -/
def SettlesOnly (store next : MemoryStore) : Prop :=
  next = { store with memories := next.memories, hits := next.hits, events := next.events }

theorem SettlesOnly.evidence (only : SettlesOnly store next) : next.evidence = store.evidence := by
  rw [only]

theorem SettlesOnly.embeddings
    (only : SettlesOnly store next) :
    next.embeddings = store.embeddings := by
  rw [only]

theorem SettlesOnly.trans
    {last : MemoryStore}
    (first : SettlesOnly store next)
    (second : SettlesOnly next last) :
    SettlesOnly store last := by
  unfold SettlesOnly at *
  rw [second, first]

variable {memoryId : String}

theorem settlesOnly_settleMemory
    (settled : store.settleMemory settings event now memoryId = some next) :
    SettlesOnly store next := by
  simp only [settleMemory, Option.pure_def, Option.bind_eq_bind, Option.bind_eq_some_iff,
    Option.some.injEq] at settled
  obtain ⟨changed, updated, rfl⟩ := settled
  unfold SettlesOnly
  rw [(setStatus_eq updated).2]
  rfl

theorem settlesOnly_foldlM
    {Item : Type}
    {settle : MemoryStore → Item → Option MemoryStore}
    (each : ∀ before item after, settle before item = some after → SettlesOnly before after)
    {items : List Item}
    (settled : items.foldlM settle store = some next) :
    SettlesOnly store next := by
  induction items generalizing store with
  | nil =>
      cases settled
      rfl
  | cons item rest ih =>
      rw [List.foldlM_cons, Option.bind_eq_bind, Option.bind_eq_some_iff] at settled
      obtain ⟨middle, first, later⟩ := settled
      exact (each store item middle first).trans (ih later)

theorem settleMemory_eq
    (settled : store.settleMemory settings event now memoryId = some next) :
    next.memories.rows = store.memories.rows.map (fun memory =>
        memory.settle settings event.isSuccess now (if memory.memoryId = memoryId then 1 else 0)) ∧
      next.hits = store.hits := by
  simp only [settleMemory, Option.pure_def, Option.bind_eq_bind, Option.bind_eq_some_iff,
    Option.some.injEq] at settled
  obtain ⟨changed, updated, rfl⟩ := settled
  obtain ⟨rows, frame⟩ := setStatus_eq updated
  constructor
  · rw [show (changed.audit memoryId _ _ now).memories.rows = changed.memories.rows from rfl, rows]
    apply List.map_congr_left
    intro memory member
    unfold Table.changed
    by_cases same : memory.memoryId = memoryId
    · subst same
      rw [loadMemory_eq member]
      cases success : event.isSuccess <;> simp [recomputeConfidence, RepairMemory.settle]
    · simp [same]
  · rw [frame]
    rfl

theorem foldlM_settleMemory_eq
    {memoryIds : List String}
    (settled : memoryIds.foldlM (settleMemory settings event now) store = some next) :
    next.memories.rows = store.memories.rows.map (fun memory =>
        memory.settle settings event.isSuccess now (memoryIds.count memory.memoryId)) ∧
      next.hits = store.hits := by
  induction memoryIds generalizing store with
  | nil =>
      cases settled
      simp
  | cons memoryId rest ih =>
      rw [List.foldlM_cons, Option.bind_eq_bind, Option.bind_eq_some_iff] at settled
      obtain ⟨middle, first, later⟩ := settled
      obtain ⟨firstRows, firstHits⟩ := settleMemory_eq first
      obtain ⟨laterRows, laterHits⟩ := ih later
      refine ⟨?_, laterHits.trans firstHits⟩
      rw [laterRows, firstRows, List.map_map]
      apply List.map_congr_left
      intro memory _
      simp only [Function.comp_apply, RepairMemory.settle_memoryId, RepairMemory.settle_settle,
        List.count_cons, beq_iff_eq, Nat.add_comm, @eq_comm _ memoryId]

/-- The hits after those of some attempts have been marked. -/
def marked (attempts : List String) (mark : MemoryHit → MemoryHit) (hit : MemoryHit) : MemoryHit :=
  if hit.attemptId ∈ attempts ∧ hit.settledAt = none then mark hit else hit

@[simp]
theorem marked_nil (mark : MemoryHit → MemoryHit) (hit : MemoryHit) : marked [] mark hit = hit := by
  simp [marked]

theorem marked_cons
    {mark : MemoryHit → MemoryHit}
    (settles : ∀ hit, (mark hit).settledAt ≠ none)
    (attempt : String)
    (rest : List String)
    (hit : MemoryHit) :
    marked rest mark (Table.changed (unsettled attempt) mark hit) =
      marked (attempt :: rest) mark hit := by
  simp only [Table.changed, unsettled, marked, Bool.and_eq_true, decide_eq_true_eq, List.mem_cons]
  by_cases same : hit.attemptId = attempt ∧ hit.settledAt = none
  · rw [if_pos same, if_neg (fun later => settles hit later.2), if_pos ⟨Or.inl same.1, same.2⟩]
  · rw [if_neg same]
    by_cases member : hit.attemptId ∈ rest ∧ hit.settledAt = none
    · rw [if_pos member, if_pos ⟨Or.inr member.1, member.2⟩]
    · rw [if_neg member, if_neg]
      rintro ⟨here | there, open_⟩
      · exact same ⟨here, open_⟩
      · exact member ⟨there, open_⟩

theorem foldlM_settleAttempt_eq
    {pending : List MemoryHit}
    {attempts : List String}
    (settled : attempts.foldlM (settleAttempt settings event now pending) store = some next) :
    next.memories.rows = store.memories.rows.map (fun memory =>
        memory.settle settings event.isSuccess now
          (attempts.map fun attempt =>
            (memoryIdsOf pending attempt).eraseDups.count memory.memoryId).sum) ∧
      next.hits.rows = store.hits.rows.map (marked attempts (pipelineMark event now)) := by
  induction attempts generalizing store with
  | nil =>
      cases settled
      constructor
      · simp
      · rw [funext (marked_nil (pipelineMark event now)), List.map_id']
  | cons attempt rest ih =>
      rw [List.foldlM_cons, Option.bind_eq_bind, Option.bind_eq_some_iff] at settled
      obtain ⟨middle, first, later⟩ := settled
      obtain ⟨firstRows, firstHits⟩ := foldlM_settleMemory_eq first
      obtain ⟨laterRows, laterHits⟩ := ih later
      constructor
      · rw [laterRows, firstRows]
        simp only [markHits, List.map_map]
        apply List.map_congr_left
        intro memory _
        simp only [Function.comp_apply, RepairMemory.settle_memoryId, RepairMemory.settle_settle,
          List.map_cons, List.sum_cons]
      · rw [laterHits, firstHits]
        simp only [markHits, Table.modify_rows, List.map_map]
        apply List.map_congr_left
        intro hit _
        exact marked_cons (fun _ => Option.some_ne_none now) attempt rest hit

/-- The pending hits of a task that name a memory. -/
def pendingCount (store : MemoryStore) (taskId memoryId : String) : Nat :=
  (store.pendingHits taskId).countP fun hit => hit.memoryId = memoryId

theorem nodup_memoryIdsOf (store : MemoryStore) (taskId attemptId : String) :
    (memoryIdsOf (store.pendingHits taskId) attemptId).Nodup := by
  unfold memoryIdsOf pendingHits
  rw [List.Nodup, List.pairwise_map, List.filter_filter]
  have distinct := store.hits.unique.filter
    (fun hit => decide (hit.attemptId = attemptId) && isPending taskId hit)
  refine distinct.imp_of_mem ?_
  intro first second left right apart same
  have leftAttempt := (List.mem_filter.mp left).2
  have rightAttempt := (List.mem_filter.mp right).2
  simp only [Bool.and_eq_true, decide_eq_true_eq] at leftAttempt rightAttempt
  simp [MemoryHit.indexes, keyed, leftAttempt.1, rightAttempt.1, same] at apart

theorem sum_count_eq_pendingCount (store : MemoryStore) (taskId memoryId : String) :
    ((attemptsOf (store.pendingHits taskId)).map fun attempt =>
        (memoryIdsOf (store.pendingHits taskId) attempt).eraseDups.count memoryId).sum =
      store.pendingCount taskId memoryId := by
  have perAttempt : ∀ attempt,
      (memoryIdsOf (store.pendingHits taskId) attempt).eraseDups.count memoryId =
        (store.pendingHits taskId).countP fun hit =>
          hit.attemptId == attempt && decide (hit.memoryId = memoryId) := by
    intro attempt
    rw [GroupedList.eraseDups_eq_self (store.nodup_memoryIdsOf taskId attempt)]
    unfold memoryIdsOf
    rw [List.count_eq_countP, List.countP_map, List.countP_filter]
    apply List.countP_congr
    intro hit _
    simp [and_comm]
  simp only [perAttempt]
  apply GroupedList.sum_countP_key
  · exact GroupedList.nodup_eraseDups _
  · intro hit member
    exact List.mem_eraseDups.mpr (List.mem_map_of_mem member)

variable (settings : MemorySettings)

/--
A pipeline settlement is rolled back, or counts every pending hit of the task
for its memory and marks the hits of their attempts.
-/
theorem settleImmediatePipeline_cases
    (store : MemoryStore)
    (taskId : String)
    (event : SettlingPipeline)
    (now : String) :
    (settleImmediatePipeline settings store taskId event now).1 = store ∨
      ((settleImmediatePipeline settings store taskId event now).1.memories.rows =
          store.memories.rows.map (fun memory => memory.settle settings event.isSuccess now
            (store.pendingCount taskId memory.memoryId)) ∧
        (settleImmediatePipeline settings store taskId event now).1.hits.rows =
          store.hits.rows.map
            (marked (attemptsOf (store.pendingHits taskId)) (pipelineMark event now))) := by
  unfold settleImmediatePipeline
  simp only
  split
  · exact Or.inl rfl
  · cases settled : (attemptsOf (store.pendingHits taskId)).foldlM
      (settleAttempt settings event now (store.pendingHits taskId)) store with
    | none =>
        exact Or.inl rfl
    | some next =>
        obtain ⟨rows, hits⟩ := foldlM_settleAttempt_eq settled
        refine Or.inr ⟨?_, hits⟩
        simp only [sum_count_eq_pendingCount] at rows
        exact rows

theorem settlesOnly_settleImmediatePipeline
    (store : MemoryStore)
    (taskId : String)
    (event : SettlingPipeline)
    (now : String) :
    SettlesOnly store (settleImmediatePipeline settings store taskId event now).1 := by
  unfold settleImmediatePipeline
  simp only
  split
  · rfl
  · cases settled : (attemptsOf (store.pendingHits taskId)).foldlM
      (settleAttempt settings event now (store.pendingHits taskId)) store with
    | none =>
        rfl
    | some next =>
        refine settlesOnly_foldlM ?_ settled
        intro before attempt after one
        have marks : SettlesOnly before
            (before.markHits attempt (pipelineMark event now) fun _ => rfl) := rfl
        exact marks.trans
          (settlesOnly_foldlM (fun _ _ _ counted => settlesOnly_settleMemory counted) one)

theorem settleWithoutValidation_eq (store : MemoryStore) (taskId now : String) :
    (store.settleWithoutValidation taskId now).1.memories = store.memories ∧
      (store.settleWithoutValidation taskId now).1.hits.rows = store.hits.rows.map
        (marked (attemptsOf (store.pendingHits taskId)) (plainMark now)) := by
  have folded : ∀ (pending : List MemoryHit) (current : MemoryStore),
      (pending.foldl (fun current hit =>
          current.markHits hit.attemptId (plainMark now) fun _ => rfl) current).memories =
        current.memories ∧
      (pending.foldl (fun current hit =>
          current.markHits hit.attemptId (plainMark now) fun _ => rfl) current).hits.rows =
        current.hits.rows.map (marked (pending.map (·.attemptId)) (plainMark now)) := by
    intro pending
    induction pending with
    | nil =>
        intro current
        refine ⟨rfl, ?_⟩
        rw [List.map_nil, funext (marked_nil (plainMark now)), List.map_id']
        rfl
    | cons hit rest ih =>
        intro current
        obtain ⟨memories, hits⟩ := ih
          (current.markHits hit.attemptId (plainMark now) fun _ => rfl)
        refine ⟨memories, ?_⟩
        rw [List.foldl_cons, hits]
        simp only [markHits, Table.modify_rows, List.map_map]
        apply List.map_congr_left
        intro other _
        exact marked_cons (fun _ => Option.some_ne_none now) _ _ other
  obtain ⟨memories, hits⟩ := folded (store.pendingHits taskId) store
  refine ⟨memories, hits.trans ?_⟩
  apply List.map_congr_left
  intro hit _
  simp only [marked, attemptsOf, List.mem_eraseDups]

theorem settlesOnly_settleWithoutValidation
    (store : MemoryStore)
    (taskId now : String) :
    SettlesOnly store (store.settleWithoutValidation taskId now).1 := by
  unfold settleWithoutValidation
  simp only
  generalize store.pendingHits taskId = pending
  induction pending generalizing store with
  | nil =>
      rfl
  | cons hit rest ih =>
      have marks : SettlesOnly store
          (store.markHits hit.attemptId (plainMark now) fun _ => rfl) := rfl
      exact marks.trans (ih _)

end MemoryStore

end MrAgent
