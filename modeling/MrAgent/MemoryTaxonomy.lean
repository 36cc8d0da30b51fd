import MrAgent.MemorySupport

namespace MrAgent

open UniqueTable TransitionSystem

/-!
# Keys, classifications and global memories

A pattern key is a digest of five classifications. A promotion and a migration
keep the key of what they rewrite and take the classifications from a new
answer of the model; eligibility is checked before the answer. Every active
memory stays sound in every run in which these answers repeat the
classifications that they were given.
-/

namespace MemoryStore

variable {env : MemoryEnv} {store next : MemoryStore}

/-- The projects of the episodes that are linked to a memory. -/
def supportingProjects (store : MemoryStore) (memoryId : String) : List String :=
  ((store.listMemorySupportingEpisodes memoryId).map (·.project)).eraseDups

/-- A memory of a project has an identifier of that kind and an episode of the project. -/
structure SoundProject (store : MemoryStore) (memory : RepairMemory) : Prop where
  named : ∃ rest, memory.memoryId = "mem:project:" ++ rest
  evidenced : ∃ episodeId episode, episodeId ∈ store.evidenceOf memory.memoryId ∧
    store.loadEpisode episodeId = some episode ∧ episode.project = memory.scopeKey

/-- A global memory is general, supported by enough projects, and alone with its key. -/
structure SoundGlobal (env : MemoryEnv) (store : MemoryStore) (memory : RepairMemory) : Prop where
  general : isPromotable memory.toTaxonomy = true
  supported : env.settings.globalMinProjects ≤ (store.supportingProjects memory.memoryId).length
  alone : ∀ other ∈ store.memories.rows, other.scope = .global → other.status = .active →
    other.patternKey = memory.patternKey → other = memory

/-- What is true of every active memory. -/
structure Sound (env : MemoryEnv) (store : MemoryStore) (memory : RepairMemory) : Prop where
  keyed : memory.patternKey = patternKeyFor env memorySchemaVersion memory.toTaxonomy
  project : memory.scope = .project → SoundProject store memory
  global : memory.scope = .global → SoundGlobal env store memory

/-- The invariant of consolidation, promotion and migration. -/
def Classified (env : MemoryEnv) (store : MemoryStore) : Prop :=
  ∀ memory ∈ store.memories.rows, memory.status = .active → Sound env store memory

/-! ## What stays when the store grows -/

/-- No evidence and no episode is lost. -/
structure Enriches (before after : MemoryStore) : Prop where
  evidence : ∀ memoryId, before.evidenceOf memoryId ⊆ after.evidenceOf memoryId
  episodes : ∀ episodeId episode, before.loadEpisode episodeId = some episode →
    after.loadEpisode episodeId = some episode

theorem Enriches.of_same
    (evidence : next.evidence = store.evidence)
    (episodes : next.episodes = store.episodes) :
    Enriches store next where
  evidence := by
    intro memoryId
    rw [evidenceOf, evidenceOf, evidence]
    exact List.Subset.refl _
  episodes := by
    intro episodeId episode found
    rw [loadEpisode, episodes]
    exact found

theorem Enriches.of_insertAll
    {links : List MemoryEvidence}
    (evidence : next.evidence = store.evidence.insertAll links)
    (episodes : next.episodes = store.episodes) :
    Enriches store next where
  evidence := by
    intro memoryId episodeId linked
    obtain ⟨link, member, facts⟩ := mem_evidenceOf.mp linked
    obtain ⟨fresh, _, rows⟩ := store.evidence.insertAll_eq links
    refine mem_evidenceOf.mpr ⟨link, ?_, facts⟩
    rw [evidence, rows]
    exact List.mem_append_left fresh member
  episodes := by
    intro episodeId episode found
    rw [loadEpisode, episodes]
    exact found

/-- The rest of a memory that the invariant reads. -/
structure SameMemory (old memory : RepairMemory) : Prop where
  memoryId : memory.memoryId = old.memoryId
  scope : memory.scope = old.scope
  scopeKey : memory.scopeKey = old.scopeKey
  patternKey : memory.patternKey = old.patternKey
  taxonomy : memory.toTaxonomy = old.toTaxonomy

/-- The memory was there before, active and with the same classification. -/
def KeptFrom (store : MemoryStore) (memory : RepairMemory) : Prop :=
  ∃ old ∈ store.memories.rows, old.status = .active ∧ SameMemory old memory

variable {memory : RepairMemory}

theorem KeptFrom.of_mem
    (member : memory ∈ store.memories.rows)
    (active : memory.status = .active) :
    KeptFrom store memory :=
  ⟨memory, member, active, rfl, rfl, rfl, rfl, rfl⟩

theorem supportingProjects_mono
    (grows : Enriches store next)
    {source target : String}
    (copied : store.evidenceOf source ⊆ next.evidenceOf target) :
    (store.supportingProjects source).length ≤ (next.supportingProjects target).length := by
  apply GroupedList.length_eraseDups_le_of_subset
  apply List.map_subset
  intro episode member
  obtain ⟨episodeId, linked, found⟩ := List.mem_filterMap.mp member
  exact List.mem_filterMap.mpr ⟨episodeId, copied linked, grows.episodes episodeId episode found⟩

theorem evidenced_mono
    (grows : Enriches store next)
    {source target project : String}
    (copied : store.evidenceOf source ⊆ next.evidenceOf target)
    (evidenced : ∃ episodeId episode, episodeId ∈ store.evidenceOf source ∧
      store.loadEpisode episodeId = some episode ∧ episode.project = project) :
    ∃ episodeId episode, episodeId ∈ next.evidenceOf target ∧
      next.loadEpisode episodeId = some episode ∧ episode.project = project := by
  obtain ⟨episodeId, episode, linked, found, own⟩ := evidenced
  exact ⟨episodeId, episode, copied linked, grows.episodes episodeId episode found, own⟩

theorem sound_of_kept
    (classified : Classified env store)
    (grows : Enriches store next)
    (member : memory ∈ next.memories.rows)
    (kept : KeptFrom store memory)
    (others : memory.scope = .global → ∀ other ∈ next.memories.rows, other.scope = .global →
      other.status = .active → other.patternKey = memory.patternKey → KeptFrom store other) :
    Sound env next memory := by
  obtain ⟨old, oldMember, active, same⟩ := kept
  have sound := classified old oldMember active
  refine ⟨?_, ?_, ?_⟩
  · rw [same.patternKey, same.taxonomy]
    exact sound.keyed
  · intro scope
    have project := sound.project (same.scope.symm.trans scope)
    refine ⟨?_, ?_⟩
    · rw [same.memoryId]
      exact project.named
    · rw [same.memoryId, same.scopeKey]
      exact evidenced_mono grows (grows.evidence old.memoryId) project.evidenced
  · intro scope
    have global := sound.global (same.scope.symm.trans scope)
    refine ⟨?_, ?_, ?_⟩
    · rw [same.taxonomy]
      exact global.general
    · rw [same.memoryId]
      exact global.supported.trans (supportingProjects_mono grows (grows.evidence old.memoryId))
    · intro other otherMember otherScope otherActive key
      obtain ⟨before, beforeMember, beforeActive, otherSame⟩ :=
        others scope other otherMember otherScope otherActive key
      have one := global.alone before beforeMember (otherSame.scope.symm.trans otherScope)
        beforeActive ((otherSame.patternKey.symm.trans key).trans same.patternKey)
      apply Table.eq_of_clash otherMember member
      apply RepairMemory.clash_iff.mpr
      rw [otherSame.memoryId, same.memoryId, one]
      exact Or.inl rfl

theorem classified_of_kept
    (classified : Classified env store)
    (grows : Enriches store next)
    (kept : ∀ memory ∈ next.memories.rows, memory.status = .active → KeptFrom store memory) :
    Classified env next := by
  intro memory member active
  apply sound_of_kept classified grows member (kept memory member active)
  intro _ other otherMember _ otherActive _
  exact kept other otherMember otherActive

/-! ## Consolidation -/

theorem classified_upsertProjectMemory
    (classified : Classified env store)
    {candidate : MemoryCandidate}
    (current : candidate.schemaVersion = memorySchemaVersion)
    {episode : EpisodeRow}
    (stored : store.loadEpisode episode.episodeId = some episode)
    (now : String) :
    Classified env (upsertProjectMemory env store candidate episode now) := by
  unfold upsertProjectMemory
  simp only
  split
  · have grows : Enriches store ((store.saveMemory (memoryFromCandidate env candidate episode
        (min (80 / 100) env.settings.projectInitialConfidence) now)).linkEvidence
          (projectMemoryId episode.project
            (patternKeyFor env candidate.schemaVersion candidate.toTaxonomy))
          episode.episodeId now) :=
      @Enriches.of_insertAll store _ [_] rfl rfl
    intro memory member active
    rcases Table.mem_insertOrReplace.mp member with ⟨old, _⟩ | rfl
    · apply sound_of_kept classified grows member (KeptFrom.of_mem old active)
      intro _ other otherMember otherScope otherActive _
      rcases Table.mem_insertOrReplace.mp otherMember with ⟨otherOld, _⟩ | rfl
      · exact KeptFrom.of_mem otherOld otherActive
      · cases otherScope
    · refine ⟨?_, ?_, ?_⟩
      · exact congrArg (fun version => patternKeyFor env version candidate.toTaxonomy) current
      · intro _
        exact ⟨⟨_, rfl⟩, episode.episodeId, episode,
          mem_evidenceOf_linkEvidence.mpr (Or.inr rfl), stored, rfl⟩
      · intro scope
        cases scope
  · rename_i existing _
    refine classified_of_kept classified (@Enriches.of_insertAll store _ [_] rfl rfl) ?_
    intro memory member active
    obtain ⟨old, oldMember, rfl⟩ := List.mem_map.mp member
    unfold Table.changed at active ⊢
    split
    · rename_i selected
      rw [if_pos selected] at active
      exact ⟨old, oldMember, active, rfl, rfl, rfl, rfl, rfl⟩
    · rename_i selected
      rw [if_neg selected] at active
      exact KeptFrom.of_mem oldMember active

/-! ## Promotion -/

theorem loadEpisode_episodeId
    {episodeId : String}
    {episode : EpisodeRow}
    (found : store.loadEpisode episodeId = some episode) :
    episode.episodeId = episodeId := by
  simpa using List.find?_some found

theorem scopeKey_mem_supportingEpisodes
    (classified : Classified env store)
    (member : memory ∈ store.activeProjects) :
    memory.scopeKey ∈
      (store.supportingEpisodesForPattern memory.patternKey).map (·.project) := by
  obtain ⟨stored, selected⟩ := List.mem_filter.mp member
  simp only [Bool.and_eq_true, decide_eq_true_eq] at selected
  have project := (classified memory stored selected.2).project selected.1
  obtain ⟨episodeId, episode, linked, found, own⟩ := project.evidenced
  obtain ⟨link, linkMember, sameMemory, sameEpisode⟩ := mem_evidenceOf.mp linked
  refine List.mem_map.mpr ⟨episode, List.mem_filterMap.mpr ⟨link, linkMember, ?_⟩, own⟩
  simp [sameMemory, sameEpisode, found, loadMemory_eq stored, selected.2]

/-- What is ready for promotion, and stays so while other patterns are promoted. -/
structure ReadyPattern
    (env : MemoryEnv)
    (projects : List RepairMemory)
    (pattern : String × MemoryCandidate) : Prop where
  keyed : pattern.1 = patternKeyFor env memorySchemaVersion pattern.2.toTaxonomy
  general : isPromotable pattern.2.toTaxonomy = true
  enough : env.settings.globalMinProjects ≤
    ((projects.filter (·.patternKey = pattern.1)).map (·.scopeKey)).eraseDups.length

theorem readyPattern_of_found
    (classified : Classified env store)
    {pattern : String × MemoryCandidate}
    (found : pattern ∈ findPromotablePatterns env store) :
    ReadyPattern env store.activeProjects pattern := by
  obtain ⟨enough, first, member, key, general, candidate⟩ := mem_findPromotablePatterns found
  obtain ⟨stored, selected⟩ := List.mem_filter.mp member
  simp only [Bool.and_eq_true, decide_eq_true_eq] at selected
  have keyed := (classified first stored selected.2).keyed
  refine ⟨?_, ?_, enough⟩
  · rw [candidate, ← key]
    exact keyed
  · rw [candidate]
    exact general

theorem globalMemoryId_ne (patternKey rest : String) :
    globalMemoryId patternKey ≠ "mem:project:" ++ rest := by
  intro same
  have letters := congrArg String.toList same
  simp [globalMemoryId] at letters

theorem activeProjects_promotePattern
    (classified : Classified env store)
    (answer : String → PromotionAnswer)
    (now : String)
    (pattern : String × MemoryCandidate) :
    (promotePattern env answer now store pattern).activeProjects = store.activeProjects := by
  rcases promotePattern_cases env answer now store pattern with
    same | ⟨candidate, _, _, written⟩
  · rw [same]
  · rw [written]
    simp only [activeProjects, upsertGlobalMemory, saveMemory, Table.insertOrReplace,
      List.filter_append, List.filter_filter]
    have last : ([buildGlobalMemory env candidate pattern.1
        (store.supportingEpisodesForPattern pattern.1) now].filter fun memory =>
          memory.scope = .project && memory.status = .active) = [] := rfl
    rw [last, List.append_nil]
    apply List.filter_congr
    intro memory member
    by_cases selected : memory.scope = .project ∧ memory.status = .active
    · obtain ⟨rest, named⟩ := ((classified memory member selected.2).project selected.1).named
      have apart : RepairMemory.indexes.clash (buildGlobalMemory env candidate pattern.1
          (store.supportingEpisodesForPattern pattern.1) now) memory = false := by
        refine RepairMemory.not_clash_iff.mpr ⟨?_, ?_⟩
        · rw [named]
          exact globalMemoryId_ne pattern.1 rest
        · rintro ⟨_, _, key⟩
          have scope := congrArg Prod.fst key
          rw [RepairMemory.indexKey, RepairMemory.indexKey, selected.1] at scope
          cases scope
      rw [apart]
      simp
    · simp only [not_and] at selected
      by_cases scope : memory.scope = .project
      · simp [selected scope]
      · simp [scope]

theorem supportingProjects_upsertGlobalMemory
    (store : MemoryStore)
    (candidate : MemoryCandidate)
    (patternKey now : String) :
    ((store.supportingEpisodesForPattern patternKey).map (·.project)).eraseDups.length ≤
      ((store.upsertGlobalMemory
        (buildGlobalMemory env candidate patternKey
          (store.supportingEpisodesForPattern patternKey) now)
        (store.supportingEpisodesForPattern patternKey)).supportingProjects
          (globalMemoryId patternKey)).length := by
  apply GroupedList.length_eraseDups_le_of_subset
  apply List.map_subset
  intro episode member
  obtain ⟨link, _, chosen⟩ := List.mem_filterMap.mp member
  have found : store.loadEpisode episode.episodeId = some episode := by
    obtain ⟨loaded, found, chosen⟩ := Option.bind_eq_some_iff.mp chosen
    obtain ⟨memory, _, chosen⟩ := Option.bind_eq_some_iff.mp chosen
    split at chosen
    · cases chosen
      rw [loadEpisode_episodeId found]
      exact found
    · cases chosen
  have inserted : ({ memoryId := globalMemoryId patternKey, episodeId := episode.episodeId
                     relation := "support", createdAt := now } : MemoryEvidence) ∈
      (store.supportingEpisodesForPattern patternKey).map fun episode =>
        { memoryId := globalMemoryId patternKey, episodeId := episode.episodeId
          relation := "support", createdAt := now } :=
    List.mem_map.mpr ⟨episode, member, rfl⟩
  obtain ⟨other, present, same⟩ := store.evidence.mem_insertAll inserted
  refine List.mem_filterMap.mpr ⟨episode.episodeId, mem_evidenceOf.mpr ⟨other, present, ?_⟩, found⟩
  rcases same with rfl | clash
  · exact ⟨rfl, rfl⟩
  · simp only [MemoryEvidence.indexes, keyed, decide_eq_true_eq, Prod.mk.injEq] at clash
    exact ⟨clash.1.symm, clash.2.symm⟩

/-- The candidate of a promotion has the classifications of the project's memories. -/
def Repeats
    (env : MemoryEnv)
    (answer : String → PromotionAnswer)
    (pattern : String × MemoryCandidate) : Prop :=
  ∀ candidate, promotionCandidate env pattern.2 (answer pattern.1) = some candidate →
    candidate.toTaxonomy = pattern.2.toTaxonomy

theorem classified_promotePattern
    (classified : Classified env store)
    {answer : String → PromotionAnswer}
    (now : String)
    {pattern : String × MemoryCandidate}
    (ready : ReadyPattern env store.activeProjects pattern)
    (repeats : Repeats env answer pattern) :
    Classified env (promotePattern env answer now store pattern) := by
  rcases promotePattern_cases env answer now store pattern with
    same | ⟨candidate, absent, chosen, written⟩
  · rw [same]
    exact classified
  · have taxonomy := repeats candidate chosen
    have noGlobal : ∀ other ∈ store.memories.rows, other.scope = .global →
        other.status = .active → other.patternKey ≠ pattern.1 := by
      intro other member scope active key
      simp only [activeGlobalForPattern, Option.isSome_map, List.find?_isSome,
        Bool.eq_false_iff, ne_eq, not_exists, not_and] at absent
      exact absent other member (by simp [scope, active, key])
    rw [written]
    have grows : Enriches store (store.upsertGlobalMemory
        (buildGlobalMemory env candidate pattern.1
          (store.supportingEpisodesForPattern pattern.1) now)
        (store.supportingEpisodesForPattern pattern.1)) :=
      Enriches.of_insertAll rfl rfl
    intro memory member active
    rcases Table.mem_insertOrReplace.mp member with ⟨old, _⟩ | rfl
    · apply sound_of_kept classified grows member (KeptFrom.of_mem old active)
      intro scope other otherMember otherScope otherActive key
      rcases Table.mem_insertOrReplace.mp otherMember with ⟨otherOld, _⟩ | rfl
      · exact KeptFrom.of_mem otherOld otherActive
      · exact absurd key.symm (noGlobal memory old scope active)
    · refine ⟨?_, ?_, ?_⟩
      · have keyed := ready.keyed
        rw [← taxonomy] at keyed
        exact keyed
      · intro scope
        cases scope
      · intro _
        refine ⟨?_, ?_, ?_⟩
        · have general := ready.general
          rw [← taxonomy] at general
          exact general
        · refine (ready.enough.trans ?_).trans
            (supportingProjects_upsertGlobalMemory store candidate pattern.1 now)
          apply GroupedList.length_eraseDups_le_of_subset
          intro project listed
          obtain ⟨own, ownMember, rfl⟩ := List.mem_map.mp listed
          obtain ⟨inProjects, key⟩ := List.mem_filter.mp ownMember
          simp only [decide_eq_true_eq] at key
          rw [← key]
          exact scopeKey_mem_supportingEpisodes classified inProjects
        · intro other otherMember otherScope otherActive key
          rcases Table.mem_insertOrReplace.mp otherMember with ⟨otherOld, _⟩ | rfl
          · exact absurd key (noGlobal other otherOld otherScope otherActive)
          · rfl

theorem classified_foldl_promotePattern
    {answer : String → PromotionAnswer}
    (now : String)
    (patterns : List (String × MemoryCandidate))
    (store : MemoryStore)
    (classified : Classified env store)
    (ready : ∀ pattern ∈ patterns, ReadyPattern env store.activeProjects pattern)
    (repeats : ∀ pattern ∈ patterns, Repeats env answer pattern) :
    Classified env (patterns.foldl (promotePattern env answer now) store) := by
  induction patterns generalizing store with
  | nil =>
      exact classified
  | cons pattern rest ih =>
      apply ih
      · exact classified_promotePattern classified now (ready pattern List.mem_cons_self)
          (repeats pattern List.mem_cons_self)
      · intro other member
        rw [activeProjects_promotePattern classified]
        exact ready other (List.mem_cons_of_mem pattern member)
      · intro other member
        exact repeats other (List.mem_cons_of_mem pattern member)

/-! ## Migration -/

/-- Memories go out of use, and nothing else happens. -/
structure Retires (before after : MemoryStore) : Prop where
  rows : ∀ memory ∈ after.memories.rows, memory.status = .active → memory ∈ before.memories.rows
  evidence : after.evidence = before.evidence
  episodes : after.episodes = before.episodes

theorem Retires.of_frame
    (memories : next.memories = store.memories)
    (evidence : next.evidence = store.evidence)
    (episodes : next.episodes = store.episodes) :
    Retires store next := by
  refine ⟨?_, evidence, episodes⟩
  intro memory member _
  rw [memories] at member
  exact member

theorem retires_markLegacyMemoryNeedsReview
    (store : MemoryStore)
    (memoryId now : String) :
    Retires store (store.markLegacyMemoryNeedsReview memoryId now).1 := by
  unfold markLegacyMemoryNeedsReview
  split
  · exact Retires.of_frame rfl rfl rfl
  · cases marked : store.setStatus memoryId fun memory =>
      { memory with
        status := .needsReview, updatedAt := now, manualReason := "missing_supporting_episode" } with
    | none =>
        exact Retires.of_frame rfl rfl rfl
    | some next =>
        obtain ⟨rows, frame⟩ := setStatus_eq marked
        refine ⟨?_, ?_, ?_⟩
        · intro memory member active
          change memory ∈ next.memories.rows at member
          rw [rows] at member
          obtain ⟨old, oldMember, rfl⟩ := List.mem_map.mp member
          unfold Table.changed at active ⊢
          split
          · rename_i selected
            rw [if_pos selected] at active
            cases active
          · exact oldMember
        · rw [frame]
          rfl
        · rw [frame]
          rfl

/-- The answer to a migration, once it is accepted. -/
def migrationCandidate
    (env : MemoryEnv)
    (answer : String → Option CandidateOutput)
    (memory : RepairMemory) : Option MemoryCandidate :=
  (answer memory.memoryId).bind fun value => (candidateFromStructuredOutput env value).toOption

theorem migrateLegacyMemory_cases
    (env : MemoryEnv)
    (answer : String → Option CandidateOutput)
    (now : String)
    (store : MemoryStore)
    (memory : RepairMemory) :
    Retires store (migrateLegacyMemory env answer now store memory) ∨
      ∃ candidate changedAt, migrationCandidate env answer memory = some candidate ∧
        Migrates store memory.memoryId (legacyReplacement env memory candidate now).1
          (legacyReplacement env memory candidate now).2 changedAt
          (migrateLegacyMemory env answer now store memory) := by
  unfold migrateLegacyMemory
  split
  · exact Or.inl (retires_markLegacyMemoryNeedsReview store memory.memoryId now)
  · split
    · exact Or.inl (Retires.of_frame rfl rfl rfl)
    · rename_i candidate chosen
      rcases store.commitLegacyMemoryMigration_cases memory.memoryId
          (legacyReplacement env memory candidate now).1
          (legacyReplacement env memory candidate now).2 now with
        refused | ⟨changedAt, migrated, migrates, committed⟩
      · left
        simp only [refused]
        exact Retires.of_frame rfl rfl rfl
      · right
        refine ⟨candidate, changedAt, chosen, ?_⟩
        simp only [committed]
        exact migrates

/-- A row with the identifier of a memory that is still to be migrated is that memory. -/
def Current (store : MemoryStore) (memory : RepairMemory) : Prop :=
  ∀ row ∈ store.memories.rows, row.memoryId = memory.memoryId → isLegacy row = true →
    row = memory

theorem isLegacy_active {memory : RepairMemory} (legacy : isLegacy memory = true) :
    memory.status = .active := by
  simp only [isLegacy, Bool.and_eq_true, decide_eq_true_eq] at legacy
  exact legacy.1

theorem Migrates.mem_cases
    {oldMemoryId changedAt : String}
    {replacement : RepairMemory}
    {pendingEmbedding : RepairMemoryEmbedding}
    (migrates : Migrates store oldMemoryId replacement pendingEmbedding changedAt next)
    (member : memory ∈ next.memories.rows)
    (active : memory.status = .active) :
    (memory ∈ store.memories.rows ∧ memory.memoryId ≠ oldMemoryId) ∨ memory = replacement := by
  rw [migrates.memories] at member
  rcases List.mem_append.mp member with old | last
  · obtain ⟨before, beforeMember, rfl⟩ := List.mem_map.mp old
    unfold supersede Table.changed at active ⊢
    split
    · rename_i selected
      rw [if_pos selected] at active
      cases active
    · rename_i selected
      simp only [decide_eq_true_eq] at selected
      exact Or.inl ⟨beforeMember, selected⟩
  · exact Or.inr (List.mem_singleton.mp last)

theorem current_migrateLegacyMemory
    (current : Current store memory)
    (answer : String → Option CandidateOutput)
    (now : String)
    (other : RepairMemory) :
    Current (migrateLegacyMemory env answer now store other) memory := by
  intro row member same legacy
  rcases migrateLegacyMemory_cases env answer now store other with
    retires | ⟨candidate, changedAt, _, migrates⟩
  · exact current row (retires.rows row member (isLegacy_active legacy)) same legacy
  · rcases migrates.mem_cases member (isLegacy_active legacy) with ⟨old, _⟩ | rfl
    · exact current row old same legacy
    · simp [isLegacy, legacyReplacement] at legacy

theorem evidenceOf_copyEvidence (store : MemoryStore) (source target now : String) :
    store.evidenceOf source ⊆ (store.copyEvidence source target now).evidenceOf target := by
  intro episodeId linked
  obtain ⟨link, member, sameMemory, sameEpisode⟩ := mem_evidenceOf.mp linked
  have copied : { link with memoryId := target, createdAt := now } ∈
      (store.evidence.rows.filter (·.memoryId = source)).map fun row =>
        { row with memoryId := target, createdAt := now } :=
    List.mem_map.mpr ⟨link, List.mem_filter.mpr ⟨member, by simp [sameMemory]⟩, rfl⟩
  obtain ⟨other, present, same⟩ := store.evidence.mem_insertAll copied
  refine mem_evidenceOf.mpr ⟨other, present, ?_⟩
  rcases same with rfl | clash
  · exact ⟨rfl, sameEpisode⟩
  · simp only [MemoryEvidence.indexes, keyed, decide_eq_true_eq, Prod.mk.injEq] at clash
    exact ⟨clash.1.symm, clash.2.symm.trans sameEpisode⟩

theorem classified_migrateLegacyMemory
    (classified : Classified env store)
    {answer : String → Option CandidateOutput}
    (now : String)
    (current : Current store memory)
    (repeats : ∀ candidate, migrationCandidate env answer memory = some candidate →
      candidate.toTaxonomy = memory.toTaxonomy) :
    Classified env (migrateLegacyMemory env answer now store memory) := by
  rcases migrateLegacyMemory_cases env answer now store memory with
    retires | ⟨candidate, changedAt, chosen, migrates⟩
  · refine classified_of_kept classified
      (Enriches.of_same retires.evidence retires.episodes) ?_
    intro row member active
    exact KeptFrom.of_mem (retires.rows row member active) active
  · have taxonomy := repeats candidate chosen
    obtain ⟨old, oldMember, identity, legacy⟩ := migrates.legacy
    obtain rfl := current old oldMember identity legacy
    have sound := classified old oldMember (isLegacy_active legacy)
    have grows : Enriches store (migrateLegacyMemory env answer now store old) :=
      Enriches.of_insertAll migrates.evidence migrates.episodes
    have copied : store.evidenceOf old.memoryId ⊆
        (migrateLegacyMemory env answer now store old).evidenceOf
          (legacyReplacement env old candidate now).1.memoryId := by
      rw [evidenceOf, evidenceOf, migrates.evidence]
      exact store.evidenceOf_copyEvidence old.memoryId _ changedAt
    -- The replaced memory was the only global one of its pattern, and is superseded.
    have noOther : old.scope = .global → ∀ other ∈ store.memories.rows, other.scope = .global →
        other.status = .active → other.patternKey = old.patternKey →
          other.memoryId = old.memoryId := by
      intro scope other otherMember otherScope otherActive key
      rw [(sound.global scope).alone other otherMember otherScope otherActive key]
    intro row member active
    rcases migrates.mem_cases member active with ⟨rowOld, different⟩ | rfl
    · apply sound_of_kept classified grows member (KeptFrom.of_mem rowOld active)
      intro scope other otherMember otherScope otherActive key
      rcases migrates.mem_cases otherMember otherActive with ⟨otherOld, _⟩ | rfl
      · exact KeptFrom.of_mem otherOld otherActive
      · exact absurd (noOther otherScope row rowOld scope active key.symm) different
    · refine ⟨?_, ?_, ?_⟩
      · have keyed := sound.keyed
        rw [← taxonomy] at keyed
        exact keyed
      · intro scope
        have project := sound.project scope
        refine ⟨?_, evidenced_mono grows copied project.evidenced⟩
        obtain ⟨rest, named⟩ := project.named
        refine ⟨rest ++ s!":zh-v{old.patternVersion + 1}", ?_⟩
        simp only [legacyReplacement, named, String.append_assoc]
      · intro scope
        have global := sound.global scope
        refine ⟨?_, global.supported.trans (supportingProjects_mono grows copied), ?_⟩
        · have general := global.general
          rw [← taxonomy] at general
          exact general
        · intro other otherMember otherScope otherActive key
          rcases migrates.mem_cases otherMember otherActive with ⟨otherOld, different⟩ | same
          · exact absurd (noOther scope other otherOld otherScope otherActive key) different
          · exact same

theorem classified_foldl_migrateLegacyMemory
    {answer : String → Option CandidateOutput}
    (now : String)
    (memories : List RepairMemory)
    (store : MemoryStore)
    (classified : Classified env store)
    (current : ∀ memory ∈ memories, Current store memory)
    (repeats : ∀ memory ∈ memories, ∀ candidate,
      migrationCandidate env answer memory = some candidate →
        candidate.toTaxonomy = memory.toTaxonomy) :
    Classified env (memories.foldl (migrateLegacyMemory env answer now) store) := by
  induction memories generalizing store with
  | nil =>
      exact classified
  | cons memory rest ih =>
      apply ih
      · exact classified_migrateLegacyMemory classified now (current memory List.mem_cons_self)
          (repeats memory List.mem_cons_self)
      · intro other member
        exact current_migrateLegacyMemory (current other (List.mem_cons_of_mem memory member))
          answer now memory
      · intro other member
        exact repeats other (List.mem_cons_of_mem memory member)

theorem mem_of_mem_listLegacyMemories
    {limit : Nat}
    (listed : memory ∈ store.listLegacyMemories limit) :
    memory ∈ store.memories.rows := by
  have sorted := List.mem_of_mem_take listed
  exact (List.mem_filter.mp ((List.mem_insertionSort _).mp sorted)).1

end MemoryStore

/-! ## Runs -/

/-- The steps that write memories from answers of the model. -/
inductive TaxonomyOp where
  | saveEpisode (episode : EpisodeRow)
  | consolidate (episodeId : String) (value : CandidateOutput) (now : String)
  | promote (answer : String → MemoryStore.PromotionAnswer) (now : String)
  | migrate (answer : String → Option CandidateOutput) (limit : Nat) (now : String)

namespace TaxonomyOp

def step (env : MemoryEnv) (store : MemoryStore) : TaxonomyOp → MemoryStore
  | saveEpisode episode => store.saveEpisode episode
  | consolidate episodeId value now =>
    MemoryStore.consolidateEpisode env store episodeId value now
  | promote answer now => MemoryStore.promoteReadyPatterns env answer now store
  | migrate answer limit now => MemoryStore.migrateLegacyMemories env answer limit now store

/-- An answer to a promotion or a migration repeats the classifications it was given. -/
def allowed (env : MemoryEnv) (store : MemoryStore) : TaxonomyOp → Prop
  | promote answer _ => ∀ pattern ∈ MemoryStore.findPromotablePatterns env store,
    MemoryStore.Repeats env answer pattern
  | migrate answer limit _ => ∀ memory ∈ store.listLegacyMemories limit, ∀ candidate,
    MemoryStore.migrationCandidate env answer memory = some candidate →
      candidate.toTaxonomy = memory.toTaxonomy
  | _ => True

end TaxonomyOp

namespace MemoryStore

variable {env : MemoryEnv} {store : MemoryStore}

theorem enriches_saveEpisode (store : MemoryStore) (episode : EpisodeRow) :
    Enriches store (store.saveEpisode episode) where
  evidence := fun _ => List.Subset.refl _
  episodes := by
    intro episodeId found loaded
    rcases store.episodes.insertOrIgnore_eq
        { episode with
          consolidationOwner := none
          consolidationLeaseUntil := none
          lastErrorCode := none
          processedAt := none } with ⟨same, _⟩ | inserted
    · simp only [loadEpisode, saveEpisode, same] at loaded ⊢
      exact loaded
    · simp only [loadEpisode, saveEpisode, inserted, List.find?_append] at loaded ⊢
      rw [loaded]
      rfl

theorem classified_step
    (classified : Classified env store)
    (op : TaxonomyOp)
    (permitted : op.allowed env store) :
    Classified env (op.step env store) := by
  cases op with
  | saveEpisode episode =>
      refine classified_of_kept classified (enriches_saveEpisode store episode) ?_
      intro memory member active
      exact KeptFrom.of_mem member active
  | consolidate episodeId value now =>
      simp only [TaxonomyOp.step, consolidateEpisode]
      cases found : store.loadEpisode episodeId with
      | none =>
          exact classified
      | some episode =>
          cases accepted : candidateFromStructuredOutput env value with
          | error reason =>
              exact classified
          | ok candidate =>
              apply classified_upsertProjectMemory classified
                (candidateFromStructuredOutput_ok accepted).1
              rw [loadEpisode_episodeId found]
              exact found
  | promote answer now =>
      apply classified_foldl_promotePattern now _ store classified
      · intro pattern found
        exact readyPattern_of_found classified found
      · exact permitted
  | migrate answer limit now =>
      apply classified_foldl_migrateLegacyMemory now _ store classified
      · intro memory listed row member same _
        exact Table.eq_of_clash member (mem_of_mem_listLegacyMemories listed)
          (RepairMemory.clash_iff.mpr (Or.inl same))
      · exact permitted

/-- As long as promotions and migrations repeat the classifications, every active memory has its
own key, no two global ones share it, and each of these has enough projects. -/
theorem memories_follow_their_taxonomy
    {start reached : MemoryStore}
    (begins : Classified env start)
    (run : Reaches (TaxonomyOp.step env) (TaxonomyOp.allowed env) start reached) :
    (∀ memory ∈ reached.memories.rows, memory.status = .active →
      memory.patternKey = patternKeyFor env memorySchemaVersion memory.toTaxonomy) ∧
    (∀ first ∈ reached.memories.rows, ∀ second ∈ reached.memories.rows,
      first.scope = .global → first.status = .active →
      second.scope = .global → second.status = .active →
        first.patternKey = second.patternKey → first = second) ∧
    ∀ memory ∈ reached.memories.rows, memory.scope = .global → memory.status = .active →
      isPromotable memory.toTaxonomy = true ∧
        env.settings.globalMinProjects ≤ (reached.supportingProjects memory.memoryId).length := by
  have classified : Classified env reached := by
    apply run.invariant (Classified env)
    · intro store op kept permitted
      exact classified_step kept op permitted
    · exact begins
  refine ⟨?_, ?_, ?_⟩
  · intro memory member active
    exact (classified memory member active).keyed
  · intro first left second right leftScope leftActive rightScope rightActive key
    exact ((classified second right rightActive).global rightScope).alone first left leftScope
      leftActive key
  · intro memory member scope active
    have global := (classified memory member active).global scope
    exact ⟨global.general, global.supported⟩

namespace DriftedMemory

/-- The classifications as the model is asked for them. -/
def output (language : String) : CandidateOutput where
  language := language
  buildSystem := "cmake"
  failureFamily := "missing_header"
  rootCauseClass := "missing_dependency"
  repairActionClass := "add_dependency"
  problemPattern := "缺少头文件"
  applicability := []
  antiConditions := []
  repairGuidance := "补充依赖"
  validationGuidance := []

/-- The digests are those of the two patterns that occur. -/
def twoPatterns : MemoryEnv where
  settings := {}
  digest := fun raw =>
    if raw = "v1:other:cmake:missing_header:missing_dependency:add_dependency" then
      "1f6612c237cbebf655b129840879714fd225b83f421a269bd2c311a35b6aa696"
    else "5e5882df2120e3c18fb230188ae7336474c3198e1042eef6023be92b5399fae4"
  lower := fun text => String.ofList (text.toList.map Char.toLower)
  loweredOutput := fun value => String.join
    [value.language, value.buildSystem, value.failureFamily, value.rootCauseClass,
      value.repairActionClass, value.problemPattern, value.repairGuidance]
  loweredGuidance := fun guidance => guidance.problemPattern ++ guidance.repairGuidance
  embeddingModelName := "bge"
  embeddingModelRevision := "1"
  embeddingDimensions := 4
  sourceHash := fun memory => memory.memoryId
  fetchone := List.head?
  fetchone_mem := DisabledMemory.env.fetchone_mem
  fetchone_none := DisabledMemory.env.fetchone_none

def episode (name project : String) : EpisodeRow where
  diagnosticFingerprint := ""
  causalTokens := []
  changedFiles := []
  episodeId := name
  taskId := name
  actionIdentity := name
  project := project

/-- Two projects have met the same pattern. -/
def shared : MemoryStore :=
  [TaxonomyOp.saveEpisode (episode "e1" "alpha"),
    .saveEpisode (episode "e2" "beta"),
    .consolidate "e1" (output "cpp") "1",
    .consolidate "e2" (output "cpp") "2"].foldl (TaxonomyOp.step twoPatterns) empty

theorem classified_empty : Classified twoPatterns empty := by
  intro memory member
  cases member

/-- The store after a promotion that the model has answered with this language. -/
def promoted (language : String) : MemoryStore :=
  promoteReadyPatterns twoPatterns (fun _ => .output (output language)) "3" shared

theorem promoted_memory_general :
    (promoted "cpp").memories.rows ≠ [] ∧ ∀ memory ∈ (promoted "cpp").memories.rows,
      memory.memoryId = "mem:global:5e5882df2120e3c18fb23018" →
        isPromotable memory.toTaxonomy = true := by
  have known : ∀ pattern ∈ findPromotablePatterns twoPatterns shared,
      pattern.2.toTaxonomy = (output "cpp").toTaxonomy := by
    decide +kernel
  have permitted : TaxonomyOp.allowed twoPatterns shared
      (.promote (fun _ => .output (output "cpp")) "3") := by
    intro pattern found candidate chosen
    rw [known pattern found]
    exact (candidateFromStructuredOutput_ok (promotionCandidate_output chosen)).2
  have kind : ∀ memory ∈ (promoted "cpp").memories.rows,
      memory.memoryId = "mem:global:5e5882df2120e3c18fb23018" →
        memory.scope = .global ∧ memory.status = .active := by
    decide +kernel
  have begins : Reaches (TaxonomyOp.step twoPatterns) (TaxonomyOp.allowed twoPatterns) empty
      shared := by
    apply Reaches.of_follows
    exact ⟨trivial, trivial, trivial, trivial, trivial⟩
  have run : Reaches (TaxonomyOp.step twoPatterns) (TaxonomyOp.allowed twoPatterns) empty
      (promoted "cpp") :=
    begins.snoc (.promote (fun _ => .output (output "cpp")) "3") permitted
  refine ⟨by decide +kernel, fun memory member named => ?_⟩
  obtain ⟨scope, active⟩ := kind memory member named
  exact ((memories_follow_their_taxonomy classified_empty run).2.2 memory member scope active).1

/-- The answer to the promotion names another language, and is accepted. -/
theorem promoted_memory_drifts :
    ∃ memory ∈ (promoted "other").memories.rows,
      memory.scope = .global ∧ memory.status = .active ∧
        memory.patternKey ≠ patternKeyFor twoPatterns memorySchemaVersion memory.toTaxonomy ∧
        isPromotable memory.toTaxonomy = false := by
  decide +kernel

end DriftedMemory

end MemoryStore

end MrAgent
