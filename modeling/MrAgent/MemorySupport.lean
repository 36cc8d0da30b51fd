import MrAgent.MemoryConsolidation
import MrAgent.SettledOnce

namespace MrAgent

open UniqueTable TransitionSystem

/-!
# Support, counters and retired memories under consolidation

Episodes are consolidated, patterns promoted and hits settled, and operators
change the status of memories. A consolidation and a promotion look for an
active memory only; without one they write a new row over whatever has its
identifier. They keep the support exact, the counters and the decisions of the
operators as long as there is nothing to write over.
-/

namespace MemoryStore

variable {store next : MemoryStore}

/-! ## Evidence -/

theorem nodup_evidenceOf (store : MemoryStore) (memoryId : String) :
    (store.evidenceOf memoryId).Nodup := by
  unfold evidenceOf
  rw [List.Nodup, List.pairwise_map]
  refine (store.evidence.unique.filter fun row => decide (row.memoryId = memoryId)).imp_of_mem ?_
  intro first second left right apart same
  have leftMemory := (List.mem_filter.mp left).2
  have rightMemory := (List.mem_filter.mp right).2
  simp only [decide_eq_true_eq] at leftMemory rightMemory
  simp [MemoryEvidence.indexes, keyed, leftMemory, rightMemory, same] at apart

theorem mem_evidenceOf {memoryId episodeId : String} :
    episodeId ∈ store.evidenceOf memoryId ↔
      ∃ link ∈ store.evidence.rows, link.memoryId = memoryId ∧ link.episodeId = episodeId := by
  simp [evidenceOf, and_assoc]

theorem linkEvidence_rows (store : MemoryStore) (memoryId episodeId now : String) :
    ((store.linkEvidence memoryId episodeId now).evidence = store.evidence ∧
        episodeId ∈ store.evidenceOf memoryId) ∨
      (store.linkEvidence memoryId episodeId now).evidence.rows = store.evidence.rows ++
        [{ memoryId := memoryId, episodeId := episodeId, relation := "support"
           createdAt := now }] := by
  rcases store.evidence.insertOrIgnore_eq
    { memoryId := memoryId, episodeId := episodeId, relation := "support", createdAt := now }
    with ⟨same, other, member, clash⟩ | inserted
  · refine Or.inl ⟨same, mem_evidenceOf.mpr ⟨other, member, ?_⟩⟩
    simp only [MemoryEvidence.indexes, keyed, decide_eq_true_eq, Prod.mk.injEq] at clash
    exact ⟨clash.1.symm, clash.2.symm⟩
  · exact Or.inr inserted

theorem mem_evidenceOf_linkEvidence {memoryId episodeId now other : String} :
    other ∈ (store.linkEvidence memoryId episodeId now).evidenceOf memoryId ↔
      other ∈ store.evidenceOf memoryId ∨ other = episodeId := by
  rcases store.linkEvidence_rows memoryId episodeId now with ⟨same, known⟩ | inserted
  · simp only [evidenceOf, same]
    constructor
    · exact Or.inl
    · rintro (old | rfl)
      · exact old
      · exact known
  · simp [evidenceOf, inserted]

theorem evidenceOf_linkEvidence_other
    {memoryId episodeId now other : String}
    (different : other ≠ memoryId) :
    (store.linkEvidence memoryId episodeId now).evidenceOf other = store.evidenceOf other := by
  rcases store.linkEvidence_rows memoryId episodeId now with ⟨same, _⟩ | inserted
  · simp only [evidenceOf, same]
  · simp [evidenceOf, inserted, different.symm]

theorem length_eraseDups_eq_one
    {episodes : List String}
    {episodeId : String}
    (distinct : episodes.Nodup)
    (only : ∀ other, other ∈ episodes ↔ other = episodeId) :
    episodes.eraseDups.length = 1 := by
  rw [GroupedList.eraseDups_eq_self distinct]
  cases episodes with
  | nil =>
      have impossible := (only episodeId).mpr rfl
      cases impossible
  | cons first rest =>
      have firstIs := (only first).mp List.mem_cons_self
      cases rest with
      | nil =>
          rfl
      | cons second others =>
          have secondIs := (only second).mp (List.mem_cons_of_mem first List.mem_cons_self)
          rw [firstIs, secondIs] at distinct
          simp at distinct

/-! ## The invariant and what the writers must not meet -/

/-- Every memory counts the distinct episodes of its evidence. -/
def Supported (store : MemoryStore) : Prop :=
  ∀ memory ∈ store.memories.rows,
    memory.supportEpisodeCount = (store.evidenceOf memory.memoryId).eraseDups.length

/-- No stored memory has the identifier or the place of this one. -/
def NewMemory (store : MemoryStore) (memory : RepairMemory) : Prop :=
  ∀ row ∈ store.memories.rows, RepairMemory.indexes.clash memory row = false

/--
A consolidation finds the active memory of its pattern, or nothing: no memory
in whatever status that it would write over, and no evidence left of one.
-/
def FreshUpsert
    (env : MemoryEnv)
    (store : MemoryStore)
    (candidate : MemoryCandidate)
    (episode : EpisodeRow) : Prop :=
  let patternKey := patternKeyFor env candidate.schemaVersion candidate.toTaxonomy
  store.activeProjectMemories episode.project patternKey ≠ [] ∨
    (store.NewMemory (memoryFromCandidate env candidate episode 0 "") ∧
      ∀ other ∈ store.evidenceOf (projectMemoryId episode.project patternKey),
        other = episode.episodeId)

/--
A promotion finds an active global memory of its pattern, or nothing to write
over, and no episode that supports two memories of the pattern.
-/
def FreshPromotion (env : MemoryEnv) (store : MemoryStore) (patternKey : String) : Prop :=
  (store.activeGlobalForPattern patternKey).isSome = true ∨
    ((∀ candidate : MemoryCandidate, candidate.schemaVersion = memorySchemaVersion →
        store.NewMemory (buildGlobalMemory env candidate patternKey [] "")) ∧
      store.evidenceOf (globalMemoryId patternKey) = [] ∧
      ((store.supportingEpisodesForPattern patternKey).map (·.episodeId)).Nodup)

/-- Every promotion of a call is fresh where it is made. -/
def FreshPromotions
    (env : MemoryEnv)
    (answer : String → PromotionAnswer)
    (now : String) : MemoryStore → List (String × MemoryCandidate) → Prop
  | _, [] => True
  | store, pattern :: rest => FreshPromotion env store pattern.1 ∧
    FreshPromotions env answer now (promotePattern env answer now store pattern) rest

/-- No memory is lost and no counter goes down. -/
def CountersKept (before after : MemoryStore) : Prop :=
  ∀ memory ∈ before.memories.rows, ∃ later ∈ after.memories.rows,
    later.memoryId = memory.memoryId ∧ memory.settledAttempts ≤ later.settledAttempts ∧
      memory.immediateSuccesses ≤ later.immediateSuccesses

theorem CountersKept.refl (store : MemoryStore) : CountersKept store store :=
  fun memory member => ⟨memory, member, rfl, Nat.le_refl _, Nat.le_refl _⟩

variable {last : MemoryStore}

theorem CountersKept.trans
    (first : CountersKept store next)
    (second : CountersKept next last) :
    CountersKept store last := by
  intro memory member
  obtain ⟨later, laterMember, same, attempts, successes⟩ := first memory member
  obtain ⟨final, finalMember, again, moreAttempts, moreSuccesses⟩ := second later laterMember
  exact ⟨final, finalMember, again.trans same, attempts.trans moreAttempts,
    successes.trans moreSuccesses⟩

/-- What a consolidation or a promotion does when it is fresh. -/
structure Consolidates (before after : MemoryStore) : Prop where
  supported : Supported before → Supported after
  counters : CountersKept before after
  retired : RetiredKept before after

theorem RetiredKept.refl (store : MemoryStore) : RetiredKept store store := by
  intro memory member retired later laterMember same
  rw [Table.eq_of_clash laterMember member (RepairMemory.clash_iff.mpr (Or.inl same))]
  exact retired

theorem Consolidates.refl (store : MemoryStore) : Consolidates store store where
  supported := id
  counters := CountersKept.refl store
  retired := RetiredKept.refl store

theorem Consolidates.trans
    (first : Consolidates store next)
    (second : Consolidates next last) :
    Consolidates store last where
  supported := fun supported => second.supported (first.supported supported)
  counters := first.counters.trans second.counters
  retired := by
    intro memory member retired final finalMember same
    obtain ⟨later, laterMember, laterSame, _⟩ := first.counters memory member
    have stays := first.retired memory member retired later laterMember laterSame
    exact second.retired later laterMember stays final finalMember (same.trans laterSame.symm)

/-! ## Consolidation -/

variable {memory : RepairMemory}

theorem saveMemory_rows
    (new : store.NewMemory memory) :
    (store.saveMemory memory).memories.rows = store.memories.rows ++ [memory] := by
  simp only [saveMemory, Table.insertOrReplace]
  congr 1
  rw [List.filter_eq_self]
  intro row member
  simp [new row member]

theorem consolidates_append
    (new : store.NewMemory memory)
    (rows : next.memories.rows = store.memories.rows ++ [memory])
    (others : ∀ other, other ≠ memory.memoryId → next.evidenceOf other = store.evidenceOf other)
    (support : memory.supportEpisodeCount = (next.evidenceOf memory.memoryId).eraseDups.length) :
    Consolidates store next := by
  have different : ∀ row ∈ store.memories.rows, row.memoryId ≠ memory.memoryId := by
    intro row member same
    exact (RepairMemory.not_clash_iff.mp (new row member)).1 same.symm
  refine ⟨?_, ?_, ?_⟩
  · intro supported row member
    rw [rows] at member
    rcases List.mem_append.mp member with old | last
    · rw [others row.memoryId (different row old)]
      exact supported row old
    · rw [List.mem_singleton.mp last]
      exact support
  · intro row member
    rw [rows]
    exact ⟨row, List.mem_append_left _ member, rfl, Nat.le_refl _, Nat.le_refl _⟩
  · intro row member retired later laterMember same
    rw [rows] at laterMember
    rcases List.mem_append.mp laterMember with old | last
    · exact RetiredKept.refl store row member retired later old same
    · rw [List.mem_singleton.mp last] at same
      exact absurd same.symm (different row member)

theorem countersKept_of_map
    {change : RepairMemory → RepairMemory}
    (rows : next.memories.rows = store.memories.rows.map change)
    (identity : ∀ memory, (change memory).memoryId = memory.memoryId)
    (grows : ∀ memory, memory.settledAttempts ≤ (change memory).settledAttempts ∧
      memory.immediateSuccesses ≤ (change memory).immediateSuccesses) :
    CountersKept store next := by
  intro memory member
  rw [rows]
  exact ⟨change memory, List.mem_map_of_mem member, identity memory, grows memory⟩

theorem consolidates_reinforce
    {memoryId episodeId : String}
    (confidence : Rat)
    (now : String) :
    Consolidates store ((store.linkEvidence memoryId episodeId now).reinforce memoryId confidence
      (((store.linkEvidence memoryId episodeId now).evidenceOf memoryId).eraseDups.length) now) := by
  refine ⟨?_, ?_, ?_⟩
  · intro supported memory member
    obtain ⟨old, oldMember, rfl⟩ := List.mem_map.mp member
    by_cases same : old.memoryId = memoryId
    · simp [Table.changed, same]
      rfl
    · simp only [Table.changed, same, decide_false, Bool.false_eq_true, if_false]
      have others : (store.linkEvidence memoryId episodeId now).evidenceOf old.memoryId =
          store.evidenceOf old.memoryId := evidenceOf_linkEvidence_other same
      have kept := supported old oldMember
      rw [← others] at kept
      exact kept
  · refine countersKept_of_map rfl ?_ ?_
    · intro memory
      unfold Table.changed
      split <;> rfl
    · intro memory
      unfold Table.changed
      split <;> exact ⟨Nat.le_refl _, Nat.le_refl _⟩
  · intro memory member retired later laterMember same
    obtain ⟨old, oldMember, rfl⟩ := List.mem_map.mp laterMember
    have status := RetiredKept.refl store memory member retired old oldMember
    unfold Table.changed at same ⊢
    split
    · rename_i selected
      rw [if_pos selected] at same
      exact status same
    · rename_i selected
      rw [if_neg selected] at same
      exact status same

theorem consolidates_upsertProjectMemory
    {env : MemoryEnv}
    {candidate : MemoryCandidate}
    {episode : EpisodeRow}
    (now : String)
    (fresh : FreshUpsert env store candidate episode) :
    Consolidates store (upsertProjectMemory env store candidate episode now) := by
  unfold upsertProjectMemory
  simp only
  split
  · rename_i absent
    have none := env.fetchone_none _ absent
    rcases fresh with active | ⟨new, evidence⟩
    · exact absurd none active
    · have unmet : store.NewMemory (memoryFromCandidate env candidate episode
          (min (80 / 100) env.settings.projectInitialConfidence) now) := new
      refine consolidates_append unmet (saveMemory_rows unmet) ?_ ?_
      · intro other different
        exact evidenceOf_linkEvidence_other different
      · symm
        apply length_eraseDups_eq_one (nodup_evidenceOf _ _)
        intro other
        rw [mem_evidenceOf_linkEvidence]
        constructor
        · rintro (old | same)
          · exact evidence other old
          · exact same
        · exact Or.inr
  · exact consolidates_reinforce _ now

/-! ## Promotion -/

theorem evidence_insertAll
    {memoryId now : String}
    {episodes : List EpisodeRow}
    (absent : store.evidenceOf memoryId = [])
    (distinct : (episodes.map (·.episodeId)).Nodup) :
    (store.evidence.insertAll (episodes.map fun episode =>
      { memoryId := memoryId, episodeId := episode.episodeId, relation := "support"
        createdAt := now })).rows = store.evidence.rows ++ episodes.map fun episode =>
      { memoryId := memoryId, episodeId := episode.episodeId, relation := "support"
        createdAt := now } := by
  apply Table.insertAll_of_free
  · rw [List.pairwise_map]
    rw [List.Nodup, List.pairwise_map] at distinct
    refine distinct.imp ?_
    intro first second different
    simp [MemoryEvidence.indexes, keyed, different]
  · intro link member other stored
    obtain ⟨episode, _, rfl⟩ := List.mem_map.mp member
    have unlinked : other.memoryId ≠ memoryId := by
      intro linked
      have listed : other.episodeId ∈ store.evidenceOf memoryId :=
        mem_evidenceOf.mpr ⟨other, stored, linked, rfl⟩
      rw [absent] at listed
      cases listed
    simp [MemoryEvidence.indexes, keyed, unlinked.symm]

theorem consolidates_promotePattern
    {env : MemoryEnv}
    (answer : String → PromotionAnswer)
    (now : String)
    {pattern : String × MemoryCandidate}
    (current : pattern.2.schemaVersion = memorySchemaVersion)
    (fresh : FreshPromotion env store pattern.1) :
    Consolidates store (promotePattern env answer now store pattern) := by
  rcases promotePattern_cases env answer now store pattern with
    same | ⟨candidate, absent, chosen, written⟩
  · rw [same]
    exact Consolidates.refl store
  · rw [written]
    rcases fresh with active | ⟨new, noEvidence, distinct⟩
    · rw [absent] at active
      cases active
    · have unmet : store.NewMemory (buildGlobalMemory env candidate pattern.1
          (store.supportingEpisodesForPattern pattern.1) now) :=
        new candidate (promotionCandidate_schemaVersion current chosen)
      have linked := @evidence_insertAll store (globalMemoryId pattern.1) now _ noEvidence distinct
      refine consolidates_append unmet (saveMemory_rows unmet) ?_ ?_
      · intro other different
        have untouched : globalMemoryId pattern.1 ≠ other := different.symm
        simp only [evidenceOf, upsertGlobalMemory, buildGlobalMemory, saveMemory, linked]
        simp [untouched]
      · have links : (store.upsertGlobalMemory (buildGlobalMemory env candidate pattern.1
            (store.supportingEpisodesForPattern pattern.1) now)
            (store.supportingEpisodesForPattern pattern.1)).evidenceOf
              (globalMemoryId pattern.1) =
              (store.supportingEpisodesForPattern pattern.1).map (·.episodeId) := by
          simp only [evidenceOf] at noEvidence
          simp only [evidenceOf, upsertGlobalMemory, buildGlobalMemory, saveMemory, linked,
            List.filter_append, List.map_append, noEvidence]
          simp [List.filter_map, Function.comp_def]
        change _ = (List.eraseDups (evidenceOf _ (globalMemoryId pattern.1))).length
        rw [links, GroupedList.eraseDups_eq_self distinct, List.length_map]
        rfl

theorem consolidates_foldl_promotePattern
    {env : MemoryEnv}
    (answer : String → PromotionAnswer)
    (now : String)
    (patterns : List (String × MemoryCandidate))
    (store : MemoryStore)
    (current : ∀ pattern ∈ patterns, pattern.2.schemaVersion = memorySchemaVersion)
    (fresh : FreshPromotions env answer now store patterns) :
    Consolidates store (patterns.foldl (promotePattern env answer now) store) := by
  induction patterns generalizing store with
  | nil =>
      exact Consolidates.refl store
  | cons pattern rest ih =>
      obtain ⟨first, later⟩ := fresh
      have promoted := consolidates_promotePattern answer now
        (current pattern List.mem_cons_self) first
      exact promoted.trans (ih _
        (fun other member => current other (List.mem_cons_of_mem pattern member)) later)

theorem consolidates_promoteReadyPatterns
    {env : MemoryEnv}
    (answer : String → PromotionAnswer)
    (now : String)
    (fresh : FreshPromotions env answer now store (findPromotablePatterns env store)) :
    Consolidates store (promoteReadyPatterns env answer now store) := by
  apply consolidates_foldl_promotePattern
  · intro pattern found
    obtain ⟨_, first, _, _, _, candidate⟩ := mem_findPromotablePatterns found
    rw [candidate]
    rfl
  · exact fresh

/-! ## Settlements and status changes -/

theorem supported_of_map
    {change : RepairMemory → RepairMemory}
    (rows : next.memories.rows = store.memories.rows.map change)
    (evidence : next.evidence = store.evidence)
    (same : ∀ memory, (change memory).memoryId = memory.memoryId ∧
      (change memory).supportEpisodeCount = memory.supportEpisodeCount)
    (supported : Supported store) :
    Supported next := by
  intro memory member
  rw [rows] at member
  obtain ⟨old, oldMember, rfl⟩ := List.mem_map.mp member
  have kept := supported old oldMember
  simp only [evidenceOf, evidence, (same old).1, (same old).2] at kept ⊢
  exact kept

/-- What every operation keeps: exact support, all memories and their counters. -/
structure KeepsSupport (before after : MemoryStore) : Prop where
  supported : Supported before → Supported after
  counters : CountersKept before after

theorem keepsSupport_of_changesStatus (changes : ChangesStatus store next) :
    KeepsSupport store next := by
  obtain ⟨change, rows, only⟩ := changes.rows
  have evidence : next.evidence = store.evidence := by
    rw [changes.frame]
  refine ⟨supported_of_map rows evidence ?_, countersKept_of_map rows ?_ ?_⟩
  · intro memory
    obtain ⟨_, _, _, changed⟩ := only memory
    rw [changed]
    exact ⟨rfl, rfl⟩
  · intro memory
    obtain ⟨_, _, _, changed⟩ := only memory
    rw [changed]
  · intro memory
    obtain ⟨_, _, _, changed⟩ := only memory
    rw [changed]
    exact ⟨Nat.le_refl _, Nat.le_refl _⟩

theorem keepsSupport_of_frame
    (memories : next.memories = store.memories)
    (evidence : next.evidence = store.evidence) :
    KeepsSupport store next := by
  refine ⟨?_, ?_⟩
  · intro supported memory member
    rw [memories] at member
    have kept := supported memory member
    simp only [evidenceOf, evidence] at kept ⊢
    exact kept
  · intro memory member
    rw [memories]
    exact CountersKept.refl store memory member

theorem keepsSupport_settleImmediatePipeline
    (settings : MemorySettings)
    (store : MemoryStore)
    (taskId : String)
    (event : SettlingPipeline)
    (now : String) :
    KeepsSupport store (settleImmediatePipeline settings store taskId event now).1 := by
  have evidence := (settlesOnly_settleImmediatePipeline settings store taskId event now).evidence
  rcases settleImmediatePipeline_cases settings store taskId event now with same | ⟨rows, _⟩
  · rw [same]
    exact ⟨id, CountersKept.refl store⟩
  · refine ⟨supported_of_map rows evidence ?_, countersKept_of_map rows ?_ ?_⟩
    · intro memory
      exact ⟨RepairMemory.settle_memoryId _ memory, RepairMemory.settle_supportEpisodeCount _ memory⟩
    · intro memory
      exact RepairMemory.settle_memoryId _ memory
    · intro memory
      rw [RepairMemory.settle_settledAttempts, RepairMemory.settle_immediateSuccesses]
      exact ⟨Nat.le_add_right _ _, Nat.le_add_right _ _⟩

end MemoryStore

/-! ## Runs -/

/-- The writers of memories, in any order. -/
inductive SupportOp where
  | saveEpisode (episode : EpisodeRow)
  | consolidate (candidate : MemoryCandidate) (episode : EpisodeRow) (now : String)
  | promote (answer : String → MemoryStore.PromotionAnswer) (now : String)
  | record (attemptId taskId : String) (memoryIds : List String) (mode : RetrievalMode)
  | settlePipeline (taskId : String) (event : SettlingPipeline) (now : String)
  | settleWithout (taskId now : String)
  | changeStatus (memoryId : String) (status : MemoryStatus) (reason : String)
      (expectedStatuses : Option (List MemoryStatus)) (changedAt : String)
  | markLegacy (memoryId now : String)
  | demoteGlobal (patternKey now : String)

namespace SupportOp

def step (env : MemoryEnv) (store : MemoryStore) : SupportOp → MemoryStore
  | saveEpisode episode => store.saveEpisode episode
  | consolidate candidate episode now =>
    MemoryStore.upsertProjectMemory env store candidate episode now
  | promote answer now => MemoryStore.promoteReadyPatterns env answer now store
  | record attemptId taskId memoryIds mode =>
    store.recordRetrievalHits attemptId taskId memoryIds mode
  | settlePipeline taskId event now =>
    (MemoryStore.settleImmediatePipeline env.settings store taskId event now).1
  | settleWithout taskId now => (store.settleWithoutValidation taskId now).1
  | changeStatus memoryId status reason expectedStatuses changedAt =>
    (store.updateMemoryStatus memoryId status reason expectedStatuses changedAt).1
  | markLegacy memoryId now => (store.markLegacyMemoryNeedsReview memoryId now).1
  | demoteGlobal patternKey now => (store.demoteGlobal patternKey now).1

/-- Consolidations and promotions are fresh. -/
def allowed (env : MemoryEnv) (store : MemoryStore) : SupportOp → Prop
  | consolidate candidate episode _ => MemoryStore.FreshUpsert env store candidate episode
  | promote answer now => MemoryStore.FreshPromotions env answer now store
    (MemoryStore.findPromotablePatterns env store)
  | _ => True

end SupportOp

namespace MemoryStore

theorem keepsSupport_step
    {env : MemoryEnv}
    (store : MemoryStore)
    (op : SupportOp)
    (permitted : op.allowed env store) :
    KeepsSupport store (op.step env store) := by
  cases op with
  | saveEpisode episode =>
      exact keepsSupport_of_frame rfl rfl
  | consolidate candidate episode now =>
      have fresh := consolidates_upsertProjectMemory now permitted
      exact ⟨fresh.supported, fresh.counters⟩
  | promote answer now =>
      have fresh := consolidates_promoteReadyPatterns answer now permitted
      exact ⟨fresh.supported, fresh.counters⟩
  | record attemptId taskId memoryIds mode =>
      exact keepsSupport_of_frame rfl rfl
  | settlePipeline taskId event now =>
      exact keepsSupport_settleImmediatePipeline env.settings store taskId event now
  | settleWithout taskId now =>
      exact keepsSupport_of_frame (store.settleWithoutValidation_eq taskId now).1
        (settlesOnly_settleWithoutValidation store taskId now).evidence
  | changeStatus memoryId status reason expectedStatuses changedAt =>
      exact keepsSupport_of_changesStatus
        (store.changesStatus_updateMemoryStatus memoryId status reason expectedStatuses changedAt)
  | markLegacy memoryId now =>
      exact keepsSupport_of_changesStatus
        (store.changesStatus_markLegacyMemoryNeedsReview memoryId now)
  | demoteGlobal patternKey now =>
      exact keepsSupport_of_changesStatus (store.changesStatus_demoteGlobal patternKey now)

/-- As long as no writer finds a retired memory or left evidence to write over, each memory counts
the distinct episodes of its evidence, and nothing is lost or brought back. -/
theorem consolidation_keeps_support_and_decisions
    {env : MemoryEnv}
    {start reached : MemoryStore}
    (begins : Supported start)
    (run : Reaches (SupportOp.step env) (SupportOp.allowed env) start reached) :
    Supported reached ∧
    (∀ final, Reaches (SupportOp.step env) (SupportOp.allowed env) reached final →
      CountersKept reached final) ∧
    (∀ candidate episode now, FreshUpsert env reached candidate episode →
      RetiredKept reached (upsertProjectMemory env reached candidate episode now)) ∧
    ∀ answer now,
      FreshPromotions env answer now reached (findPromotablePatterns env reached) →
        RetiredKept reached (promoteReadyPatterns env answer now reached) := by
  refine ⟨?_, ?_, ?_, ?_⟩
  · apply run.invariant Supported
    · intro store op supported permitted
      exact (keepsSupport_step store op permitted).supported supported
    · exact begins
  · intro final further
    apply further.relates CountersKept CountersKept.refl CountersKept.trans
    intro store op permitted
    exact (keepsSupport_step store op permitted).counters
  · intro candidate episode now fresh
    exact (consolidates_upsertProjectMemory now fresh).retired
  · intro answer now fresh
    exact (consolidates_promoteReadyPatterns answer now fresh).retired

namespace DisabledMemory

/-- The digest is that of the one pattern that occurs. -/
def env : MemoryEnv where
  settings := {}
  digest := fun _ => "5e5882df2120e3c18fb230188ae7336474c3198e1042eef6023be92b5399fae4"
  lower := fun text => String.ofList (text.toList.map Char.toLower)
  loweredOutput := fun output => output.problemPattern
  loweredGuidance := fun guidance => guidance.problemPattern
  embeddingModelName := "bge"
  embeddingModelRevision := "1"
  embeddingDimensions := 4
  sourceHash := fun memory => memory.memoryId
  fetchone := List.head?
  fetchone_mem := fun _ _ => List.mem_of_mem_head?
  fetchone_none := fun _ => List.head?_eq_none_iff.mp

def candidate : MemoryCandidate where
  language := "cpp"
  buildSystem := "cmake"
  failureFamily := "missing_header"
  rootCauseClass := "missing_dependency"
  repairActionClass := "add_dependency"
  problemPattern := "缺少头文件"
  applicability := []
  antiConditions := []
  repairGuidance := "补充依赖"
  validationGuidance := []
  schemaVersion := memorySchemaVersion

def episode (name : String) : EpisodeRow where
  diagnosticFingerprint := ""
  causalTokens := []
  changedFiles := []
  episodeId := name
  taskId := name
  actionIdentity := name
  project := "demo"

def memoryId : String := "mem:project:demo:5e5882df2120e3c18fb23018"

/-- One episode is consolidated, its memory used once and then disabled. -/
def disabled : MemoryStore :=
  [SupportOp.consolidate candidate (episode "e1") "1",
    .record "attempt:1" "t" [memoryId] .inject,
    .settlePipeline "t" { pipelineId := 7, sha := "c", status := "success" } "2",
    .changeStatus memoryId .disabled "wrong advice" none "3"].foldl (SupportOp.step env) empty

/-- The next episode of the pattern. -/
def again : MemoryStore :=
  upsertProjectMemory env disabled candidate (episode "e2") "4"

theorem supported_empty : Supported empty := by
  intro memory member
  cases member

theorem second_episode_counted :
    (upsertProjectMemory env (upsertProjectMemory env empty candidate (episode "e1") "1")
        candidate (episode "e2") "2").memories.rows ≠ [] ∧
    ∀ memory ∈ (upsertProjectMemory env (upsertProjectMemory env empty candidate (episode "e1") "1")
        candidate (episode "e2") "2").memories.rows,
      memory.supportEpisodeCount = 2 := by
  refine ⟨by decide +kernel, ?_⟩
  have first : SupportOp.allowed env empty (.consolidate candidate (episode "e1") "1") := by
    unfold SupportOp.allowed FreshUpsert NewMemory
    decide +kernel
  have second : SupportOp.allowed env
      (SupportOp.step env empty (.consolidate candidate (episode "e1") "1"))
      (.consolidate candidate (episode "e2") "2") := by
    unfold SupportOp.allowed FreshUpsert NewMemory
    decide +kernel
  have supported := (consolidation_keeps_support_and_decisions supported_empty
    (((Reaches.refl _).snoc _ first).snoc _ second)).1
  intro memory member
  rw [supported memory member]
  revert memory
  decide +kernel

/--
A consolidation writes over the disabled memory: it is active again, its
counters start from zero, and it counts one of its two episodes.
-/
theorem disabled_memory_overwritten :
    Supported disabled ∧ ¬Supported again ∧ ¬CountersKept disabled again ∧
      ¬RetiredKept disabled again := by
  unfold Supported CountersKept RetiredKept
  decide +kernel

end DisabledMemory

end MemoryStore

end MrAgent
