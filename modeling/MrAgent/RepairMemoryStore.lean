import MrAgent.BrokerModel
import MrAgent.UniqueTable

namespace MrAgent

open UniqueTable

/-!
# The repair-memory store

The tables of `store.py` and the transactions on them. A transaction that
violates a unique index is rolled back and its function returns its failure
value; foreign keys are not enforced, so nothing cascades.
-/

inductive MemoryScope where
  | project
  | global
deriving DecidableEq

inductive MemoryStatus where
  | active
  | needsReview
  | disabled
  | superseded
deriving DecidableEq

inductive EmbeddingStatus where
  | pending
  | ready
  | failed
deriving DecidableEq

inductive RetrievalMode where
  | off
  | shadow
  | inject
deriving DecidableEq

namespace MemoryScope

def value : MemoryScope → String
  | project => "project"
  | global => "global"

end MemoryScope

namespace MemoryStatus

def value : MemoryStatus → String
  | active => "active"
  | needsReview => "needs_review"
  | disabled => "disabled"
  | superseded => "superseded"

end MemoryStatus

/-- The five controlled classifications. -/
structure Taxonomy where
  language : String
  buildSystem : String
  failureFamily : String
  rootCauseClass : String
  repairActionClass : String
deriving DecidableEq

/-- The free texts of a memory. -/
structure Guidance where
  problemPattern : String
  applicability : List String
  antiConditions : List String
  repairGuidance : String
  validationGuidance : List String
deriving DecidableEq

/-- A row of `repair_memories`; the confidence is taken as an exact rational. -/
structure RepairMemory extends Taxonomy, Guidance where
  memoryId : String
  scope : MemoryScope
  scopeKey : String
  patternKey : String
  patternVersion : Nat
  diagnosticFingerprint : String
  causalTokens : List String
  confidence : Rat
  supportEpisodeCount : Nat
  supportProjectCount : Nat
  settledAttempts : Nat
  immediateSuccesses : Nat
  status : MemoryStatus
  contentLocale : String := "legacy"
  supersedesId : String := ""
  manualReason : String := ""
  createdAt : String := ""
  updatedAt : String := ""
  lastReinforcedAt : String := ""
deriving DecidableEq

/-- A row of `repair_memory_embeddings`. -/
structure RepairMemoryEmbedding where
  memoryId : String
  modelName : String
  modelRevision : String
  dimensions : Nat
  vectorBlob : List UInt8
  sourceHash : String
  status : EmbeddingStatus
  lastErrorCode : String := ""
  attemptCount : Nat := 0
  nextRetryAt : String := ""
  createdAt : String := ""
  updatedAt : String := ""
deriving DecidableEq

/-- A row of `repair_memory_evidence`. -/
structure MemoryEvidence where
  memoryId : String
  episodeId : String
  relation : String
  createdAt : String
deriving DecidableEq

/-- How a hit was settled. -/
inductive HitOutcome where
  | success
  | failed
  | noValidation
deriving DecidableEq

/-- A row of `repair_memory_hits`. -/
structure MemoryHit where
  attemptId : String
  taskId : String
  memoryId : String
  mode : RetrievalMode
  immediatePipelineId : Option Nat := none
  immediatePipelineSha : Option String := none
  immediatePipelineStatus : Option String := none
  outcome : Option HitOutcome := none
  settledAt : Option String := none
deriving DecidableEq

/-- A row of `repair_memory_events`. -/
structure MemoryEvent where
  memoryId : String
  eventType : String
  reason : String
  createdAt : String
deriving DecidableEq

/-- Whether an episode still has to be consolidated. -/
inductive ConsolidationStatus where
  | pending
  | claimed
  | complete
  | invalid
deriving DecidableEq

/-- What a repair has shown, as the consolidation reads it. -/
structure EpisodeEvidence where
  diagnosticFingerprint : String
  causalTokens : List String
  changedFiles : List String
deriving DecidableEq

/-- A row of `repair_memory_episodes`. -/
structure EpisodeRow extends EpisodeEvidence where
  episodeId : String
  taskId : String
  actionIdentity : String
  project : String
  consolidationStatus : ConsolidationStatus := .pending
  consolidationOwner : Option String := none
  consolidationLeaseUntil : Option Rat := none
  lastErrorCode : Option String := none
  createdAt : String := ""
  processedAt : Option String := none
deriving DecidableEq

/-! ## Unique indexes -/

namespace RepairMemory

/-- The rows that the index over scope, pattern and version covers. -/
def indexed (memory : RepairMemory) : Bool :=
  memory.status ≠ .superseded

/-- The key of this index. -/
def indexKey (memory : RepairMemory) : MemoryScope × String × String × Nat :=
  (memory.scope, memory.scopeKey, memory.patternKey, memory.patternVersion)

/-- `repair_memories`: the primary key and `ux_repair_memory_scope_pattern`. -/
def indexes : Indexes RepairMemory where
  clash := fun first second =>
    first.memoryId = second.memoryId ||
      (first.indexed && second.indexed && first.indexKey = second.indexKey)
  symm := by
    intro first second
    simp only [eq_comm, Bool.and_comm]

theorem clash_iff {first second : RepairMemory} :
    indexes.clash first second = true ↔
      first.memoryId = second.memoryId ∨
        (first.indexed = true ∧ second.indexed = true ∧ first.indexKey = second.indexKey) := by
  simp [indexes, and_assoc]

theorem not_clash_iff {first second : RepairMemory} :
    indexes.clash first second = false ↔
      first.memoryId ≠ second.memoryId ∧
        ¬(first.indexed = true ∧ second.indexed = true ∧ first.indexKey = second.indexKey) := by
  rw [← Bool.not_eq_true, clash_iff, not_or]

end RepairMemory

/-- Rows with one key column. -/
def keyed {Row Key : Type} [DecidableEq Key] (key : Row → Key) : Indexes Row where
  clash := fun first second => key first = key second
  symm := by
    intro first second
    simp only [eq_comm]

/-- `ux_repair_memory_evidence`. -/
def MemoryEvidence.indexes : Indexes MemoryEvidence :=
  keyed fun row => (row.memoryId, row.episodeId)

/-- `ux_repair_memory_hit`. -/
def MemoryHit.indexes : Indexes MemoryHit :=
  keyed fun hit => (hit.attemptId, hit.memoryId)

/-- `repair_memory_embeddings`: the primary key. -/
def RepairMemoryEmbedding.indexes : Indexes RepairMemoryEmbedding :=
  keyed fun row => row.memoryId

/-- `repair_memory_episodes`: the primary key and `ux_repair_memory_episode_identity`. -/
def EpisodeRow.indexes : Indexes EpisodeRow where
  clash := fun first second =>
    first.episodeId = second.episodeId ||
      (first.taskId, first.actionIdentity) = (second.taskId, second.actionIdentity)
  symm := by
    intro first second
    simp only [eq_comm]

/-- The tables of the store. -/
structure MemoryStore where
  episodes : Table EpisodeRow.indexes
  memories : Table RepairMemory.indexes
  evidence : Table MemoryEvidence.indexes
  hits : Table MemoryHit.indexes
  embeddings : Table RepairMemoryEmbedding.indexes
  events : List MemoryEvent

namespace MemoryStore

/-- A store without rows. -/
def empty : MemoryStore where
  episodes := Table.empty _
  memories := Table.empty _
  evidence := Table.empty _
  hits := Table.empty _
  embeddings := Table.empty _
  events := []

/-- The result of a transaction, or the old store if it was rolled back. -/
def commit {α : Type} (store : MemoryStore) (failure : α) (result : Option (MemoryStore × α)) :
    MemoryStore × α :=
  result.getD (store, failure)

/-- `load_memory`. -/
def loadMemory (store : MemoryStore) (memoryId : String) : Option RepairMemory :=
  store.memories.rows.find? fun memory => memory.memoryId = memoryId

/-- An audit event is appended. -/
def audit (store : MemoryStore) (memoryId eventType reason now : String) : MemoryStore :=
  { store with
    events := store.events ++
      [{ memoryId := memoryId, eventType := eventType, reason := reason, createdAt := now }] }

/-- A supporting episode is linked to a memory. -/
def linkEvidence (store : MemoryStore) (memoryId episodeId now : String) : MemoryStore :=
  { store with
    evidence := store.evidence.insertOrIgnore
      { memoryId := memoryId, episodeId := episodeId, relation := "support", createdAt := now } }

/-- `save_episode`. -/
def saveEpisode (store : MemoryStore) (episode : EpisodeRow) : MemoryStore :=
  { store with
    episodes := store.episodes.insertOrIgnore
      { episode with
        consolidationOwner := none
        consolidationLeaseUntil := none
        lastErrorCode := none
        processedAt := none } }

/-- `save_memory`. -/
def saveMemory (store : MemoryStore) (memory : RepairMemory) : MemoryStore :=
  { store with memories := store.memories.insertOrReplace memory }

/-- `save_memory_with_evidence`. -/
def saveMemoryWithEvidence
    (store : MemoryStore)
    (memory : RepairMemory)
    (episodeId : String) : MemoryStore :=
  (store.saveMemory memory).linkEvidence memory.memoryId episodeId memory.createdAt

/-- Set the status of one row. -/
def setStatus
    (store : MemoryStore)
    (memoryId : String)
    (change : RepairMemory → RepairMemory) : Option MemoryStore := do
  let memories ← store.memories.update (fun memory => memory.memoryId = memoryId) change
  return { store with memories := memories }

/-- The memory is an active one whose texts are not yet Chinese. -/
def isLegacy (memory : RepairMemory) : Bool :=
  memory.status = .active && memory.contentLocale ≠ "zh-CN"

/-- `mark_legacy_memory_needs_review`. -/
def markLegacyMemoryNeedsReview
    (store : MemoryStore)
    (memoryId now : String) : MemoryStore × Bool :=
  match (store.loadMemory memoryId).filter isLegacy with
  | none => (store, false)
  | some _ => store.commit false do
    let marked ← store.setStatus memoryId fun memory =>
      { memory with
        status := .needsReview, updatedAt := now, manualReason := "missing_supporting_episode" }
    return (marked.audit memoryId "legacy_memory_needs_review" "missing_supporting_episode" now,
      true)

/-- The evidence of one memory, copied to another. -/
def copyEvidence (store : MemoryStore) (source target now : String) : MemoryStore :=
  let copies := (store.evidence.rows.filter (·.memoryId = source)).map fun row =>
    { row with memoryId := target, createdAt := now }
  { store with evidence := store.evidence.insertAll copies }

/-- The embedding that a migration queues. -/
def queuedEmbedding (pending : RepairMemoryEmbedding) : RepairMemoryEmbedding :=
  { pending with vectorBlob := [], lastErrorCode := "", nextRetryAt := "" }

/-- `commit_legacy_memory_migration`. -/
def commitLegacyMemoryMigration
    (store : MemoryStore)
    (oldMemoryId : String)
    (replacement : RepairMemory)
    (pendingEmbedding : RepairMemoryEmbedding)
    (clock : String) : MemoryStore × Bool :=
  match (store.loadMemory oldMemoryId).filter isLegacy with
  | none => (store, false)
  | some _ => store.commit false do
    let now := if replacement.updatedAt = "" then clock else replacement.updatedAt
    let marked ← store.setStatus oldMemoryId fun memory =>
      { memory with status := .superseded, updatedAt := now }
    let memories ← marked.memories.insert replacement
    let copied := { marked with memories := memories }.copyEvidence oldMemoryId
      replacement.memoryId now
    let embeddings ← copied.embeddings.insert (queuedEmbedding pendingEmbedding)
    return ({ copied with embeddings := embeddings }.audit oldMemoryId "legacy_memory_migrated"
      "regenerated_from_supporting_episode" now, true)

/-- `update_memory_status`. -/
def updateMemoryStatus
    (store : MemoryStore)
    (memoryId : String)
    (status : MemoryStatus)
    (reason : String)
    (expectedStatuses : Option (List MemoryStatus))
    (changedAt : String) : MemoryStore × Option RepairMemory :=
  let normalizedReason := String.ofList (strip reason.toList)
  if normalizedReason.length < 1 || 500 < normalizedReason.length then (store, none)
  else
    match store.loadMemory memoryId with
    | none => (store, none)
    | some current =>
      if current.status = status then (store, some current)
      else if expectedStatuses.any (current.status ∉ ·) then (store, none)
      else store.commit none do
        let changed ← store.setStatus memoryId fun memory =>
          { memory with status := status, updatedAt := changedAt }
        let audited := changed.audit memoryId status.value normalizedReason changedAt
        return (audited, audited.loadMemory memoryId)

/-- `count_distinct_supporting_projects`. -/
def countDistinctSupportingProjects (store : MemoryStore) (patternKey : String) : Nat :=
  ((store.memories.rows.filter fun memory =>
    memory.scope = .project && memory.status = .active && memory.patternKey = patternKey &&
      store.evidence.rows.any fun row =>
        row.memoryId = memory.memoryId &&
          store.episodes.rows.any (·.episodeId = row.episodeId)).map (·.scopeKey)).eraseDups.length

/-- One global memory loses its support. -/
def demote (now : String) (store : MemoryStore) (memory : RepairMemory) : Option MemoryStore := do
  let changed ← store.setStatus memory.memoryId fun row =>
    { row with status := .needsReview, updatedAt := now }
  return changed.audit memory.memoryId "needs_review" "insufficient active project support" now

/-- The write of `revalidate_global_support`, after the support has been counted. -/
def demoteGlobal (store : MemoryStore) (patternKey now : String) : MemoryStore × Bool :=
  let demoted := store.memories.rows.filter fun memory =>
    memory.scope = .global && memory.patternKey = patternKey && memory.status = .active
  if demoted.isEmpty then (store, false)
  else
    store.commit false do
      let final ← demoted.foldlM (demote now) store
      return (final, true)

/-- `record_retrieval_hits`: the hits of one attempt. -/
def recordRetrievalHits
    (store : MemoryStore)
    (attemptId taskId : String)
    (memoryIds : List String)
    (mode : RetrievalMode) : MemoryStore :=
  { store with
    hits := store.hits.insertAll (memoryIds.map fun memoryId =>
      { attemptId := attemptId, taskId := taskId, memoryId := memoryId, mode := mode }) }

/-! ## What the transactions do to the rows -/

variable {store next : MemoryStore}

variable {memory : RepairMemory}

theorem loadMemory_eq
    (member : memory ∈ store.memories.rows) :
    store.loadMemory memory.memoryId = some memory := by
  unfold loadMemory
  cases found : store.memories.rows.find? fun row => row.memoryId = memory.memoryId with
  | none =>
      have absent := List.find?_eq_none.mp found memory member
      simp at absent
  | some row =>
      have same : row.memoryId = memory.memoryId := by
        simpa using List.find?_some found
      have clash := RepairMemory.clash_iff.mpr (Or.inl same)
      rw [Table.eq_of_clash (List.mem_of_find?_eq_some found) member clash]

variable {memoryId : String}

theorem mem_of_loadMemory
    (loaded : store.loadMemory memoryId = some memory) :
    memory ∈ store.memories.rows ∧ memory.memoryId = memoryId :=
  ⟨List.mem_of_find?_eq_some loaded, by simpa using List.find?_some loaded⟩

theorem setStatus_eq
    {change : RepairMemory → RepairMemory}
    (changed : store.setStatus memoryId change = some next) :
    next.memories.rows = store.memories.rows.map
        (Table.changed (fun memory => memory.memoryId = memoryId) change) ∧
      next = { store with memories := next.memories } := by
  simp only [setStatus, Option.pure_def, Option.bind_eq_bind, Option.bind_eq_some_iff,
    Option.some.injEq] at changed
  obtain ⟨memories, updated, rfl⟩ := changed
  exact ⟨Table.update_rows updated, rfl⟩

theorem updateMemoryStatus_cases
    (store : MemoryStore)
    (memoryId : String)
    (status : MemoryStatus)
    (reason : String)
    (expectedStatuses : Option (List MemoryStatus))
    (changedAt : String) :
    (store.updateMemoryStatus memoryId status reason expectedStatuses changedAt).1 = store ∨
      ∃ memories events,
        memories.rows = store.memories.rows.map
          (Table.changed (fun memory => memory.memoryId = memoryId)
            fun memory => { memory with status := status, updatedAt := changedAt }) ∧
        (store.updateMemoryStatus memoryId status reason expectedStatuses changedAt).1 =
          { store with memories := memories, events := events } := by
  unfold updateMemoryStatus
  simp only
  split
  · exact Or.inl rfl
  · split
    · exact Or.inl rfl
    · split
      · exact Or.inl rfl
      · split
        · exact Or.inl rfl
        · cases changed : store.setStatus memoryId fun memory =>
            { memory with status := status, updatedAt := changedAt } with
          | none =>
              exact Or.inl rfl
          | some next =>
              obtain ⟨rows, frame⟩ := setStatus_eq changed
              refine Or.inr ⟨next.memories, (next.audit memoryId status.value
                (String.ofList (strip reason.toList)) changedAt).events, rows, ?_⟩
              rw [frame]
              rfl

/-- Nothing but the status of memories changes, and what is noted beside it. -/
structure ChangesStatus (store next : MemoryStore) : Prop where
  frame : next = { store with memories := next.memories, events := next.events }
  rows : ∃ change : RepairMemory → RepairMemory,
    next.memories.rows = store.memories.rows.map change ∧
      ∀ memory, ∃ status updatedAt manualReason, change memory =
        { memory with status := status, updatedAt := updatedAt, manualReason := manualReason }

namespace ChangesStatus

theorem refl (store : MemoryStore) : ChangesStatus store store where
  frame := rfl
  rows := ⟨id, (List.map_id _).symm, fun memory =>
    ⟨memory.status, memory.updatedAt, memory.manualReason, rfl⟩⟩

theorem trans
    {last : MemoryStore}
    (first : ChangesStatus store next)
    (second : ChangesStatus next last) :
    ChangesStatus store last where
  frame := by
    rw [second.frame, first.frame]
  rows := by
    obtain ⟨before, beforeRows, beforeOnly⟩ := first.rows
    obtain ⟨after, afterRows, afterOnly⟩ := second.rows
    refine ⟨after ∘ before, by rw [afterRows, beforeRows, List.map_map], ?_⟩
    intro memory
    obtain ⟨_, _, _, changed⟩ := beforeOnly memory
    obtain ⟨status, updatedAt, manualReason, again⟩ := afterOnly (before memory)
    refine ⟨status, updatedAt, manualReason, ?_⟩
    rw [Function.comp_apply, again, changed]

theorem audit (memoryId eventType reason now : String) :
    ChangesStatus store (store.audit memoryId eventType reason now) where
  frame := rfl
  rows := (refl store).rows

theorem of_setStatus
    {memoryId : String}
    {change : RepairMemory → RepairMemory}
    (only : ∀ memory, ∃ status updatedAt manualReason, change memory =
      { memory with status := status, updatedAt := updatedAt, manualReason := manualReason })
    (changed : store.setStatus memoryId change = some next) :
    ChangesStatus store next where
  frame := by
    rw [(setStatus_eq changed).2]
  rows := by
    refine ⟨_, (setStatus_eq changed).1, ?_⟩
    intro memory
    unfold Table.changed
    split
    · exact only memory
    · exact ⟨memory.status, memory.updatedAt, memory.manualReason, rfl⟩

end ChangesStatus

theorem changesStatus_updateMemoryStatus
    (store : MemoryStore)
    (memoryId : String)
    (status : MemoryStatus)
    (reason : String)
    (expectedStatuses : Option (List MemoryStatus))
    (changedAt : String) :
    ChangesStatus store
      (store.updateMemoryStatus memoryId status reason expectedStatuses changedAt).1 := by
  rcases store.updateMemoryStatus_cases memoryId status reason expectedStatuses changedAt with
    same | ⟨memories, events, rows, same⟩
  · rw [same]
    exact ChangesStatus.refl store
  · rw [same]
    refine ⟨rfl, _, rows, ?_⟩
    intro memory
    unfold Table.changed
    split
    · exact ⟨status, changedAt, memory.manualReason, rfl⟩
    · exact ⟨memory.status, memory.updatedAt, memory.manualReason, rfl⟩

theorem changesStatus_markLegacyMemoryNeedsReview
    (store : MemoryStore)
    (memoryId now : String) :
    ChangesStatus store (store.markLegacyMemoryNeedsReview memoryId now).1 := by
  unfold markLegacyMemoryNeedsReview
  split
  · exact ChangesStatus.refl store
  · cases marked : store.setStatus memoryId fun memory =>
      { memory with
        status := .needsReview, updatedAt := now, manualReason := "missing_supporting_episode" } with
    | none =>
        exact ChangesStatus.refl store
    | some next =>
        exact (ChangesStatus.of_setStatus (fun _ => ⟨_, _, _, rfl⟩) marked).trans
          (ChangesStatus.audit _ _ _ _)

theorem changesStatus_demoteGlobal
    (store : MemoryStore)
    (patternKey now : String) :
    ChangesStatus store (store.demoteGlobal patternKey now).1 := by
  have folded : ∀ (demoted : List RepairMemory) (current final : MemoryStore),
      demoted.foldlM (demote now) current = some final → ChangesStatus current final := by
    intro demoted
    induction demoted with
    | nil =>
        intro current final finished
        cases finished
        exact ChangesStatus.refl current
    | cons memory rest ih =>
        intro current final finished
        simp only [List.foldlM_cons, demote, Option.bind_eq_bind, Option.pure_def,
          Option.bind_eq_some_iff] at finished
        obtain ⟨middle, ⟨changed, marked, same⟩, later⟩ := finished
        cases same
        exact ((ChangesStatus.of_setStatus
          (fun row => ⟨.needsReview, now, row.manualReason, rfl⟩) marked).trans
            (ChangesStatus.audit _ _ _ _)).trans (ih _ _ later)
  unfold demoteGlobal
  simp only
  split
  · exact ChangesStatus.refl store
  · cases finished : (store.memories.rows.filter fun memory =>
        decide (memory.scope = MemoryScope.global) && decide (memory.patternKey = patternKey) &&
          decide (memory.status = MemoryStatus.active)).foldlM (demote now) store with
    | none =>
        exact ChangesStatus.refl store
    | some final =>
        exact folded _ store final finished

/-- A row that gives way to its replacement. -/
def supersede (oldMemoryId now : String) : RepairMemory → RepairMemory :=
  Table.changed (fun memory => memory.memoryId = oldMemoryId)
    fun memory => { memory with status := .superseded, updatedAt := now }

/-- What a migration that is not rolled back does. -/
structure Migrates
    (store : MemoryStore)
    (oldMemoryId : String)
    (replacement : RepairMemory)
    (pendingEmbedding : RepairMemoryEmbedding)
    (now : String)
    (next : MemoryStore) : Prop where
  legacy : ∃ old ∈ store.memories.rows, old.memoryId = oldMemoryId ∧ isLegacy old = true
  free : ∀ row ∈ store.memories.rows.map (supersede oldMemoryId now),
    RepairMemory.indexes.clash replacement row = false
  memories : next.memories.rows =
    store.memories.rows.map (supersede oldMemoryId now) ++ [replacement]
  evidence : next.evidence = (store.copyEvidence oldMemoryId replacement.memoryId now).evidence
  embeddings : next.embeddings.rows = store.embeddings.rows ++ [queuedEmbedding pendingEmbedding]
  episodes : next.episodes = store.episodes

theorem commitLegacyMemoryMigration_cases
    (store : MemoryStore)
    (oldMemoryId : String)
    (replacement : RepairMemory)
    (pendingEmbedding : RepairMemoryEmbedding)
    (clock : String) :
    store.commitLegacyMemoryMigration oldMemoryId replacement pendingEmbedding clock =
        (store, false) ∨
      ∃ now next, Migrates store oldMemoryId replacement pendingEmbedding now next ∧
        store.commitLegacyMemoryMigration oldMemoryId replacement pendingEmbedding clock =
          (next, true) := by
  unfold commitLegacyMemoryMigration
  simp only
  cases loaded : (store.loadMemory oldMemoryId).filter isLegacy with
  | none =>
      exact Or.inl rfl
  | some old =>
      obtain ⟨found, legacy⟩ := Option.filter_eq_some_iff.mp loaded
      obtain ⟨member, identity⟩ := mem_of_loadMemory found
      simp only
      generalize (if replacement.updatedAt = "" then clock else replacement.updatedAt) = now
      cases marked : store.setStatus oldMemoryId fun memory =>
          { memory with status := .superseded, updatedAt := now } with
      | none =>
          exact Or.inl rfl
      | some next =>
          obtain ⟨rows, frame⟩ := setStatus_eq marked
          cases inserted : next.memories.insert replacement with
          | none =>
              exact Or.inl (by simp [inserted, commit])
          | some memories =>
              simp only [Option.bind_eq_bind, Option.bind_some, inserted]
              obtain ⟨free, appended⟩ := Table.insert_eq_some inserted
              rw [rows] at free appended
              cases queued : ({ next with memories := memories }.copyEvidence oldMemoryId
                  replacement.memoryId now).embeddings.insert
                    (queuedEmbedding pendingEmbedding) with
              | none =>
                  exact Or.inl rfl
              | some embeddings =>
                  refine Or.inr ⟨now, _, ⟨⟨old, member, identity, legacy⟩, free, appended, ?_, ?_,
                    ?_⟩, rfl⟩
                  · rw [frame]
                    rfl
                  · rw [frame] at queued
                    exact (Table.insert_eq_some queued).2
                  · rw [frame]
                    rfl

end MemoryStore

end MrAgent
