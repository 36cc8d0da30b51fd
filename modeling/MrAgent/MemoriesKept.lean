import MrAgent.MemorySettlement

namespace MrAgent

open UniqueTable TransitionSystem

/-!
# What the store keeps

Memories are saved, migrated and change their status. The unique index over
scope, pattern and version holds throughout. A migration that would violate it
is rolled back. A save replaces whatever it clashes with, and so deletes a
different memory that has the same place in this index.
-/

/-- The operations that write memories. -/
inductive MemoryOp where
  | save (memory : RepairMemory)
  | saveWithEvidence (memory : RepairMemory) (episodeId : String)
  | migrate (oldMemoryId : String) (replacement : RepairMemory)
      (pendingEmbedding : RepairMemoryEmbedding) (clock : String)
  | changeStatus (memoryId : String) (status : MemoryStatus) (reason : String)
      (expectedStatuses : Option (List MemoryStatus)) (changedAt : String)
  | markLegacy (memoryId now : String)
  | demoteGlobal (patternKey now : String)
  | settlePipeline (settings : MemorySettings) (taskId : String) (event : SettlingPipeline)
      (now : String)

namespace MemoryStore

/-- The place of the memory in the index is free, or its own. -/
def Free (store : MemoryStore) (memory : RepairMemory) : Prop :=
  ∀ row ∈ store.memories.rows, row.memoryId ≠ memory.memoryId → memory.indexed = true →
    row.indexed = true → row.indexKey ≠ memory.indexKey

/-- All other memories stay as they are, and all evidence and embeddings. -/
structure KeepsOthers (memoryId : String) (before after : MemoryStore) : Prop where
  memories : ∀ row ∈ before.memories.rows, row.memoryId ≠ memoryId → row ∈ after.memories.rows
  evidence : ∀ link ∈ before.evidence.rows, link ∈ after.evidence.rows
  embeddings : ∀ vector ∈ before.embeddings.rows, vector ∈ after.embeddings.rows

/-- Every memory is still there, with its evidence and its embedding. -/
structure Keeps (before after : MemoryStore) : Prop where
  memories : ∀ row ∈ before.memories.rows,
    ∃ later ∈ after.memories.rows, later.memoryId = row.memoryId
  evidence : ∀ link ∈ before.evidence.rows, link ∈ after.evidence.rows
  embeddings : ∀ vector ∈ before.embeddings.rows, vector ∈ after.embeddings.rows

end MemoryStore

namespace MemoryOp

def step (store : MemoryStore) : MemoryOp → MemoryStore
  | save memory => store.saveMemory memory
  | saveWithEvidence memory episodeId => store.saveMemoryWithEvidence memory episodeId
  | migrate oldMemoryId replacement pendingEmbedding clock =>
    (store.commitLegacyMemoryMigration oldMemoryId replacement pendingEmbedding clock).1
  | changeStatus memoryId status reason expectedStatuses changedAt =>
    (store.updateMemoryStatus memoryId status reason expectedStatuses changedAt).1
  | markLegacy memoryId now => (store.markLegacyMemoryNeedsReview memoryId now).1
  | demoteGlobal patternKey now => (store.demoteGlobal patternKey now).1
  | settlePipeline settings taskId event now =>
    (MemoryStore.settleImmediatePipeline settings store taskId event now).1

/-- No save meets a different memory in its place. -/
def allowed (store : MemoryStore) : MemoryOp → Prop
  | save memory => store.Free memory
  | saveWithEvidence memory _ => store.Free memory
  | _ => True

end MemoryOp

namespace MemoryStore

variable {store next : MemoryStore}

theorem Keeps.refl (store : MemoryStore) : Keeps store store where
  memories := fun row member => ⟨row, member, rfl⟩
  evidence := fun _ member => member
  embeddings := fun _ member => member

theorem Keeps.trans
    {last : MemoryStore}
    (first : Keeps store next)
    (second : Keeps next last) :
    Keeps store last where
  memories := by
    intro row member
    obtain ⟨later, laterMember, same⟩ := first.memories row member
    obtain ⟨final, finalMember, again⟩ := second.memories later laterMember
    exact ⟨final, finalMember, again.trans same⟩
  evidence := fun link member => second.evidence link (first.evidence link member)
  embeddings := fun vector member => second.embeddings vector (first.embeddings vector member)

theorem KeepsOthers.keeps
    {memory : RepairMemory}
    (kept : KeepsOthers memory.memoryId store next)
    (saved : memory ∈ next.memories.rows) :
    Keeps store next where
  memories := by
    intro row member
    by_cases same : row.memoryId = memory.memoryId
    · exact ⟨memory, saved, same.symm⟩
    · exact ⟨row, kept.memories row member same, rfl⟩
  evidence := kept.evidence
  embeddings := kept.embeddings

theorem evidence_linkEvidence
    {memoryId episodeId now : String}
    {link : MemoryEvidence}
    (member : link ∈ store.evidence.rows) :
    link ∈ (store.linkEvidence memoryId episodeId now).evidence.rows := by
  rcases store.evidence.insertOrIgnore_eq
    { memoryId := memoryId, episodeId := episodeId, relation := "support", createdAt := now }
    with ⟨same, _⟩ | inserted
  · simpa only [linkEvidence, same] using member
  · simp only [linkEvidence, inserted]
    exact List.mem_append_left _ member

theorem keepsOthers_saveMemory (store : MemoryStore) (memory : RepairMemory) :
    KeepsOthers memory.memoryId store (store.saveMemory memory) ↔ store.Free memory := by
  constructor
  · intro kept row member different saved indexed same
    have stays := kept.memories row member different
    rcases Table.mem_insertOrReplace.mp stays with ⟨_, apart⟩ | itself
    · rw [RepairMemory.not_clash_iff] at apart
      exact apart.2 ⟨saved, indexed, same.symm⟩
    · exact different (congrArg RepairMemory.memoryId itself)
  · intro free
    refine ⟨?_, fun _ member => member, fun _ member => member⟩
    intro row member different
    refine Table.mem_insertOrReplace.mpr (Or.inl ⟨member, ?_⟩)
    rw [RepairMemory.not_clash_iff]
    refine ⟨different.symm, ?_⟩
    rintro ⟨saved, indexed, same⟩
    exact free row member different saved indexed same.symm

theorem keeps_saveMemory
    {memory : RepairMemory}
    (free : store.Free memory) :
    Keeps store (store.saveMemory memory) :=
  KeepsOthers.keeps ((keepsOthers_saveMemory store memory).mpr free)
    (Table.mem_insertOrReplace.mpr (Or.inr rfl))

theorem keeps_of_map
    {change : RepairMemory → RepairMemory}
    (rows : next.memories.rows = store.memories.rows.map change)
    (identity : ∀ memory, (change memory).memoryId = memory.memoryId)
    (evidence : next.evidence = store.evidence)
    (embeddings : next.embeddings = store.embeddings) :
    Keeps store next where
  memories := by
    intro row member
    rw [rows]
    exact ⟨change row, List.mem_map_of_mem member, identity row⟩
  evidence := by
    rw [evidence]
    exact fun _ member => member
  embeddings := by
    rw [embeddings]
    exact fun _ member => member

theorem ChangesStatus.keeps (changes : ChangesStatus store next) : Keeps store next := by
  obtain ⟨change, rows, only⟩ := changes.rows
  apply keeps_of_map rows
  · intro memory
    obtain ⟨_, _, _, changed⟩ := only memory
    rw [changed]
  · rw [changes.frame]
  · rw [changes.frame]

theorem supersede_memoryId (oldMemoryId now : String) (memory : RepairMemory) :
    (supersede oldMemoryId now memory).memoryId = memory.memoryId := by
  unfold supersede Table.changed
  split <;> rfl

theorem Migrates.keeps
    {oldMemoryId now : String}
    {replacement : RepairMemory}
    {pendingEmbedding : RepairMemoryEmbedding}
    (migrates : Migrates store oldMemoryId replacement pendingEmbedding now next) :
    Keeps store next where
  memories := by
    intro row member
    rw [migrates.memories]
    exact ⟨supersede oldMemoryId now row,
      List.mem_append_left _ (List.mem_map_of_mem member), supersede_memoryId _ _ row⟩
  evidence := by
    intro link member
    obtain ⟨fresh, _, appended⟩ := store.evidence.insertAll_eq
      ((store.evidence.rows.filter (·.memoryId = oldMemoryId)).map fun row =>
        { row with memoryId := replacement.memoryId, createdAt := now })
    rw [migrates.evidence]
    simp only [copyEvidence, appended]
    exact List.mem_append_left fresh member
  embeddings := by
    intro vector member
    rw [migrates.embeddings]
    exact List.mem_append_left _ member

theorem keeps_step
    (op : MemoryOp)
    (permitted : op.allowed store) :
    Keeps store (op.step store) := by
  cases op with
  | save memory =>
      exact keeps_saveMemory permitted
  | saveWithEvidence memory episodeId =>
      have saved := keeps_saveMemory permitted
      exact ⟨saved.memories, fun link member => evidence_linkEvidence (saved.evidence link member),
        saved.embeddings⟩
  | migrate oldMemoryId replacement pendingEmbedding clock =>
      rcases store.commitLegacyMemoryMigration_cases oldMemoryId replacement pendingEmbedding clock
        with unchanged | ⟨now, migrated, migrates, same⟩
      · simp only [MemoryOp.step, unchanged]
        exact Keeps.refl store
      · simp only [MemoryOp.step, same]
        exact migrates.keeps
  | changeStatus memoryId status reason expectedStatuses changedAt =>
      exact (store.changesStatus_updateMemoryStatus memoryId status reason expectedStatuses
        changedAt).keeps
  | markLegacy memoryId now =>
      exact (store.changesStatus_markLegacyMemoryNeedsReview memoryId now).keeps
  | demoteGlobal patternKey now =>
      exact (store.changesStatus_demoteGlobal patternKey now).keeps
  | settlePipeline settings taskId event now =>
      have frame := settlesOnly_settleImmediatePipeline settings store taskId event now
      rcases settleImmediatePipeline_cases settings store taskId event now with same | ⟨rows, _⟩
      · simp only [MemoryOp.step, same]
        exact Keeps.refl store
      · apply keeps_of_map rows
        · intro memory
          exact RepairMemory.settle_memoryId _ memory
        · exact frame.evidence
        · exact frame.embeddings

theorem eq_of_indexKey
    {first second : RepairMemory}
    (left : first ∈ store.memories.rows)
    (right : second ∈ store.memories.rows)
    (leftIndexed : first.indexed = true)
    (rightIndexed : second.indexed = true)
    (same : first.indexKey = second.indexKey) :
    first = second :=
  Table.eq_of_clash left right
    (RepairMemory.clash_iff.mpr (Or.inr ⟨leftIndexed, rightIndexed, same⟩))

/-- Memories that are not superseded have places of their own. A save keeps all others exactly if
none has its place, and a migration is refused or keeps everything else. -/
theorem saved_memories_kept
    {start reached : MemoryStore}
    (run : Reaches MemoryOp.step MemoryOp.allowed start reached) :
    Keeps start reached ∧
    ∀ store : MemoryStore,
      (∀ first ∈ store.memories.rows, ∀ second ∈ store.memories.rows,
        first.indexed = true → second.indexed = true → first.indexKey = second.indexKey →
          first = second) ∧
      (∀ memory, KeepsOthers memory.memoryId store (store.saveMemory memory) ↔
        store.Free memory) ∧
      ∀ oldMemoryId replacement embedding clock,
        store.commitLegacyMemoryMigration oldMemoryId replacement embedding clock =
            (store, false) ∨
          ∃ now next, store.commitLegacyMemoryMigration oldMemoryId replacement embedding clock =
              (next, true) ∧
            next.memories.rows =
              store.memories.rows.map (supersede oldMemoryId now) ++ [replacement] ∧
            Keeps store next := by
  constructor
  · apply run.invariant (fun store => Keeps start store)
    · intro store op kept permitted
      exact kept.trans (keeps_step op permitted)
    · exact Keeps.refl start
  · intro store
    refine ⟨?_, keepsOthers_saveMemory store, ?_⟩
    · intro first left second right leftIndexed rightIndexed same
      exact eq_of_indexKey left right leftIndexed rightIndexed same
    · intro oldMemoryId replacement embedding clock
      rcases store.commitLegacyMemoryMigration_cases oldMemoryId replacement embedding clock
        with unchanged | ⟨now, next, migrates, same⟩
      · exact Or.inl unchanged
      · exact Or.inr ⟨now, next, same, migrates.memories, migrates.keeps⟩

namespace ReplacedMemory

/-- A version of one pattern of a project. -/
def memory (memoryId : String) (version : Nat) (locale : String) : RepairMemory where
  language := "cpp"
  buildSystem := "cmake"
  failureFamily := "missing_header"
  rootCauseClass := "missing_dependency"
  repairActionClass := "add_dependency"
  problemPattern := "缺少头文件"
  applicability := []
  antiConditions := []
  repairGuidance := "补充依赖"
  validationGuidance := []
  memoryId := memoryId
  scope := .project
  scopeKey := "demo"
  patternKey := "k"
  patternVersion := version
  diagnosticFingerprint := ""
  causalTokens := []
  confidence := 60 / 100
  supportEpisodeCount := 1
  supportProjectCount := 1
  settledAttempts := 0
  immediateSuccesses := 0
  status := .active
  contentLocale := locale

def embedding : RepairMemoryEmbedding where
  memoryId := "m:zh-v2"
  modelName := "BAAI/bge-m3"
  modelRevision := "5617a9f6"
  dimensions := 1024
  vectorBlob := []
  sourceHash := "h"
  status := .pending

/-- A legacy memory. -/
def saved : MemoryStore :=
  MemoryStore.empty.saveMemory (memory "m" 1 "legacy")

/-- The legacy memory is migrated. -/
def migrated : MemoryStore :=
  (saved.commitLegacyMemoryMigration "m" (memory "m:zh-v2" 2 "zh-CN") embedding "now").1

theorem versions_kept : Keeps saved (migrated.saveMemory (memory "m:v3" 3 "zh-CN")) := by
  have free : migrated.Free (memory "m:v3" 3 "zh-CN") := by
    unfold Free
    decide +kernel
  have run : Reaches MemoryOp.step MemoryOp.allowed saved
      (migrated.saveMemory (memory "m:v3" 3 "zh-CN")) :=
    ((Reaches.refl _).snoc
      (MemoryOp.migrate "m" (memory "m:zh-v2" 2 "zh-CN") embedding "now") trivial).snoc
        (MemoryOp.save (memory "m:v3" 3 "zh-CN")) free
  exact (saved_memories_kept run).1

/--
The `supersede` command saves its correction of the first version under the
number of the migrated one, which disappears from the store.
-/
theorem correction_deletes_migrated :
    (migrated.memories.rows.map (·.memoryId) = ["m", "m:zh-v2"]) ∧
      ((migrated.saveMemory (memory "m:v2" 2 "zh-CN")).memories.rows.map (·.memoryId) =
        ["m", "m:v2"]) ∧
      ¬KeepsOthers "m:v2" migrated (migrated.saveMemory (memory "m:v2" 2 "zh-CN")) := by
  refine ⟨by decide +kernel, by decide +kernel, ?_⟩
  intro kept
  have free := (keepsOthers_saveMemory migrated (memory "m:v2" 2 "zh-CN")).mp kept
  revert free
  unfold Free
  decide +kernel

end ReplacedMemory

end MemoryStore

end MrAgent
