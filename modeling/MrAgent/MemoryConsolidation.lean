import MrAgent.FallibleProgram
import MrAgent.MemorySettlement
import MrAgent.RepairPlanner

namespace MrAgent

open UniqueTable FallibleProgram

/-!
# Consolidation, promotion and migration of memories

The writers of `consolidate.py`. An episode becomes a memory of its project,
under a key made of the five classifications of a model's answer; a pattern
that enough projects share becomes a global memory; memories with texts from
before are written anew. What the model answers is an input, and so is the
serialisation that the content rules read.
-/

/-- A validated candidate. -/
structure MemoryCandidate extends Taxonomy, Guidance where
  schemaVersion : Nat
deriving DecidableEq

/-- What the model submits. -/
structure CandidateOutput extends Taxonomy, Guidance
deriving DecidableEq

/-- `MEMORY_SCHEMA_VERSION`. -/
def memorySchemaVersion : Nat := 1

/-- What the code reads from elsewhere; SQLite returns any one of the rows that a query finds. -/
structure MemoryEnv where
  settings : MemorySettings
  digest : String → String
  lower : String → String
  loweredOutput : CandidateOutput → String
  loweredGuidance : Guidance → String
  embeddingModelName : String
  embeddingModelRevision : String
  embeddingDimensions : Nat
  sourceHash : RepairMemory → String
  fetchone : List RepairMemory → Option RepairMemory
  fetchone_mem : ∀ rows row, fetchone rows = some row → row ∈ rows
  fetchone_none : ∀ rows, fetchone rows = none → rows = []

/-! ## Validation of a candidate -/

def languages : List String := ["cpp", "python", "build_config", "other"]

def buildSystems : List String := ["cmake", "bazel", "make", "python_packaging", "other"]

def failureFamilies : List String :=
  ["missing_member", "missing_header", "undefined_symbol", "type_mismatch", "test_assertion",
    "dependency_api_drift", "build_config", "other"]

def rootCauseClasses : List String :=
  ["interface_drift", "missing_dependency", "incorrect_test_assumption", "production_bug",
    "build_config_mismatch", "other"]

def repairActionClasses : List String :=
  ["align_current_interface", "add_dependency", "adjust_test_or_mock", "fix_production_logic",
    "update_build_config", "other"]

def secretMarkers : List String :=
  ["api_key", "token", "password", "secret", "bearer", "authorization"]

/-- `_validate_taxonomy`. -/
def validateTaxonomy (field value : String) (allowlist : List String) : Except String String :=
  if value ∈ allowlist then .ok value else .error field

/-- `contains_han_text`. -/
def containsHanText (value : String) : Bool :=
  value.toList.any fun c =>
    (0x3400 ≤ c.toNat && c.toNat ≤ 0x4dbf) || (0x4e00 ≤ c.toNat && c.toNat ≤ 0x9fff) ||
      (0xf900 ≤ c.toNat && c.toNat ≤ 0xfaff)

/-- `_validate_text`. -/
def validateText (field value : String) : Except String String :=
  let text := String.ofList (strip value.toList)
  if text = "" ∨ 500 < text.length then .error field else .ok text

/-- `_validate_chinese_text`. -/
def validateChineseText (field value : String) : Except String String := do
  let text ← validateText field value
  if containsHanText text then .ok text else .error s!"content_locale:{field}"

/-- `_validate_chinese_list`. -/
def validateChineseList (field : String) (values : List String) :
    Except String (List String) := do
  if 5 < values.length then .error field
  let output ← values.mapM (validateText field)
  if output.all containsHanText then .ok output else .error s!"content_locale:{field}"

/-- `candidate_from_structured_output`. -/
def candidateFromStructuredOutput (env : MemoryEnv) (value : CandidateOutput) :
    Except String MemoryCandidate := do
  match secretMarkers.find? (containsText (env.loweredOutput value)) with
  | some marker => .error s!"secret_marker:{marker}"
  | none =>
    return {
      schemaVersion := memorySchemaVersion
      language := ← validateTaxonomy "language" value.language languages
      buildSystem := ← validateTaxonomy "build_system" value.buildSystem buildSystems
      failureFamily := ← validateTaxonomy "failure_family" value.failureFamily failureFamilies
      rootCauseClass := ← validateTaxonomy "root_cause_class" value.rootCauseClass rootCauseClasses
      repairActionClass :=
        ← validateTaxonomy "repair_action_class" value.repairActionClass repairActionClasses
      problemPattern := ← validateChineseText "problem_pattern" value.problemPattern
      applicability := ← validateChineseList "applicability" value.applicability
      antiConditions := ← validateChineseList "anti_conditions" value.antiConditions
      repairGuidance := ← validateChineseText "repair_guidance" value.repairGuidance
      validationGuidance := ← validateChineseList "validation_guidance" value.validationGuidance }

theorem validateTaxonomy_ok
    {field value result : String}
    {allowlist : List String} :
    validateTaxonomy field value allowlist = .ok result ↔ value ∈ allowlist ∧ value = result := by
  unfold validateTaxonomy
  split <;> simp_all

theorem candidateFromStructuredOutput_ok
    {env : MemoryEnv}
    {value : CandidateOutput}
    {candidate : MemoryCandidate}
    (accepted : candidateFromStructuredOutput env value = .ok candidate) :
    candidate.schemaVersion = memorySchemaVersion ∧ candidate.toTaxonomy = value.toTaxonomy := by
  unfold candidateFromStructuredOutput at accepted
  split at accepted
  · cases accepted
  · simp only [bind_eq_ok, validateTaxonomy_ok] at accepted
    obtain ⟨_, ⟨_, rfl⟩, _, ⟨_, rfl⟩, _, ⟨_, rfl⟩, _, ⟨_, rfl⟩, _, ⟨_, rfl⟩, accepted⟩ := accepted
    obtain ⟨_, _, _, _, _, _, _, _, _, _, made⟩ := accepted
    cases made
    exact ⟨rfl, rfl⟩

/-! ## Patterns -/

/-- `pattern_key_for`, on the version and the five classifications. -/
def patternKeyFor (env : MemoryEnv) (schemaVersion : Nat) (classes : Taxonomy) : String :=
  let raw := s!"v{schemaVersion}:{classes.language}:{classes.buildSystem}:" ++
    s!"{classes.failureFamily}:{classes.rootCauseClass}:{classes.repairActionClass}"
  String.ofList ((env.digest raw).toList.take 24)

/-- `_is_promotable`. -/
def isPromotable (classes : Taxonomy) : Bool :=
  classes.language ≠ "other" && classes.buildSystem ≠ "other" &&
    classes.failureFamily ≠ "other" && classes.rootCauseClass ≠ "other" &&
    classes.repairActionClass ≠ "other"

/-- The identifier of the memory of a project. -/
def projectMemoryId (project patternKey : String) : String :=
  "mem:project:" ++ (project ++ ":" ++ patternKey)

/-- The identifier of a global memory. -/
def globalMemoryId (patternKey : String) : String :=
  "mem:global:" ++ patternKey

/-- `_memory_from_candidate`, for the memory of a project. -/
def memoryFromCandidate
    (env : MemoryEnv)
    (candidate : MemoryCandidate)
    (episode : EpisodeRow)
    (confidence : Rat)
    (now : String) : RepairMemory where
  toTaxonomy := candidate.toTaxonomy
  toGuidance := candidate.toGuidance
  memoryId := projectMemoryId episode.project
    (patternKeyFor env candidate.schemaVersion candidate.toTaxonomy)
  scope := .project
  scopeKey := episode.project
  patternKey := patternKeyFor env candidate.schemaVersion candidate.toTaxonomy
  patternVersion := candidate.schemaVersion
  diagnosticFingerprint := episode.diagnosticFingerprint
  causalTokens := episode.causalTokens
  confidence := confidence
  supportEpisodeCount := 1
  supportProjectCount := 1
  settledAttempts := 0
  immediateSuccesses := 0
  status := .active
  contentLocale := "zh-CN"
  createdAt := now
  updatedAt := now
  lastReinforcedAt := now

namespace MemoryStore

/-- `load_episode`. -/
def loadEpisode (store : MemoryStore) (episodeId : String) : Option EpisodeRow :=
  store.episodes.rows.find? fun row => row.episodeId = episodeId

/-- The episodes that are linked to a memory. -/
def evidenceOf (store : MemoryStore) (memoryId : String) : List String :=
  (store.evidence.rows.filter (·.memoryId = memoryId)).map (·.episodeId)

/-- Another support of one memory is written. -/
def reinforce
    (store : MemoryStore)
    (memoryId : String)
    (confidence : Rat)
    (support : Nat)
    (now : String) : MemoryStore :=
  { store with
    memories := store.memories.modify (fun memory => memory.memoryId = memoryId)
      (fun memory => { memory with
        confidence := confidence
        supportEpisodeCount := support
        updatedAt := now
        lastReinforcedAt := now })
      (by
        intro first second apart
        unfold Table.changed
        split <;> split <;> exact apart) }

/-- The active memories of one pattern in a project. -/
def activeProjectMemories (store : MemoryStore) (project patternKey : String) :
    List RepairMemory :=
  store.memories.rows.filter fun memory =>
    memory.scope = .project && memory.scopeKey = project && memory.patternKey = patternKey &&
      memory.status = .active

/-- `_upsert_project_memory`. -/
def upsertProjectMemory
    (env : MemoryEnv)
    (store : MemoryStore)
    (candidate : MemoryCandidate)
    (episode : EpisodeRow)
    (now : String) : MemoryStore :=
  let settings := env.settings
  let patternKey := patternKeyFor env candidate.schemaVersion candidate.toTaxonomy
  match env.fetchone (store.activeProjectMemories episode.project patternKey) with
  | none =>
    let memory := memoryFromCandidate env candidate episode
      (min (80 / 100) settings.projectInitialConfidence) now
    (store.saveMemory memory).linkEvidence memory.memoryId episode.episodeId now
  | some existing =>
    let linked := store.linkEvidence existing.memoryId episode.episodeId now
    let support := (linked.evidenceOf existing.memoryId).eraseDups.length
    let confidence := min (95 / 100) (max (30 / 100)
      (min (80 / 100) (settings.projectInitialConfidence +
          (support - 1 : Nat) * settings.supportConfidenceIncrement) +
        existing.immediateSuccesses * settings.successConfidenceIncrement -
        ((existing.settledAttempts : Rat) - existing.immediateSuccesses) *
          settings.failureConfidenceDecrement))
    linked.reinforce existing.memoryId confidence support now

/-- One episode of `run_consolidation_batch`, with the answer that decides about it. -/
def consolidateEpisode
    (env : MemoryEnv)
    (store : MemoryStore)
    (episodeId : String)
    (value : CandidateOutput)
    (now : String) : MemoryStore :=
  match store.loadEpisode episodeId, candidateFromStructuredOutput env value with
  | some episode, .ok candidate => upsertProjectMemory env store candidate episode now
  | _, _ => store

/-! ## Promotion -/

/-- The memory's fields as a candidate. -/
def candidateOf (memory : RepairMemory) : MemoryCandidate where
  toTaxonomy := memory.toTaxonomy
  toGuidance := memory.toGuidance
  schemaVersion := memorySchemaVersion

/-- The active memories of projects. -/
def activeProjects (store : MemoryStore) : List RepairMemory :=
  store.memories.rows.filter fun memory => memory.scope = .project && memory.status = .active

/-- The candidate of one pattern, if enough projects share it. -/
def promotablePattern (env : MemoryEnv) (store : MemoryStore) (patternKey : String) :
    Option (String × MemoryCandidate) := do
  let own := store.activeProjects.filter (·.patternKey = patternKey)
  if env.settings.globalMinProjects ≤ (own.map (·.scopeKey)).eraseDups.length then
    let first ← env.fetchone own
    if isPromotable first.toTaxonomy then return (patternKey, candidateOf first) else none
  else none

/-- `_find_promotable_patterns`. -/
def findPromotablePatterns (env : MemoryEnv) (store : MemoryStore) :
    List (String × MemoryCandidate) :=
  ((store.activeProjects.map (·.patternKey)).eraseDups).filterMap (promotablePattern env store)

/-- `_active_global_for_pattern`. -/
def activeGlobalForPattern (store : MemoryStore) (patternKey : String) : Option String :=
  (store.memories.rows.find? fun memory =>
    memory.scope = .global && memory.patternKey = patternKey && memory.status = .active).map
      (·.memoryId)

/-- `_supporting_episodes_for_pattern`. -/
def supportingEpisodesForPattern (store : MemoryStore) (patternKey : String) : List EpisodeRow :=
  store.evidence.rows.filterMap fun link => do
    let episode ← store.loadEpisode link.episodeId
    let memory ← store.loadMemory link.memoryId
    if memory.patternKey = patternKey ∧ memory.status = .active then some episode else none

/-- `validate_global_candidate`. -/
def validateGlobalCandidate
    (env : MemoryEnv)
    (candidate : MemoryCandidate)
    (episodes : List EpisodeRow) : Bool :=
  let fullText := env.loweredGuidance candidate.toGuidance
  let leaks := fun (episode : EpisodeRow) =>
    (env.lower episode.project ≠ "" && containsText fullText (env.lower episode.project)) ||
      episode.changedFiles.any fun path =>
        4 ≤ (env.lower path).length && containsText fullText (env.lower path)
  !episodes.any leaks && !secretMarkers.any (containsText fullText)

/-- `_build_global_memory`. -/
def buildGlobalMemory
    (env : MemoryEnv)
    (candidate : MemoryCandidate)
    (patternKey : String)
    (episodes : List EpisodeRow)
    (now : String) : RepairMemory where
  toTaxonomy := candidate.toTaxonomy
  toGuidance := candidate.toGuidance
  memoryId := globalMemoryId patternKey
  scope := .global
  scopeKey := "*"
  patternKey := patternKey
  patternVersion := candidate.schemaVersion
  diagnosticFingerprint := ""
  causalTokens := []
  confidence := env.settings.globalInitialConfidence
  supportEpisodeCount := episodes.length
  supportProjectCount := (episodes.map (·.project)).eraseDups.length
  settledAttempts := 0
  immediateSuccesses := 0
  status := .active
  contentLocale := "zh-CN"
  createdAt := now
  updatedAt := now
  lastReinforcedAt := now

/-- `_upsert_global_memory`. -/
def upsertGlobalMemory
    (store : MemoryStore)
    (memory : RepairMemory)
    (episodes : List EpisodeRow) : MemoryStore :=
  let saved := store.saveMemory memory
  { saved with
    evidence := saved.evidence.insertAll (episodes.map fun episode =>
      { memoryId := memory.memoryId, episodeId := episode.episodeId, relation := "support"
        createdAt := memory.createdAt }) }

/-- What the model says to a promotion: it is not asked, gives no answer, or answers. -/
inductive PromotionAnswer where
  | notAsked
  | failed
  | output (value : CandidateOutput)

/-- The candidate of a promotion. -/
def promotionCandidate
    (env : MemoryEnv)
    (projectCandidate : MemoryCandidate) : PromotionAnswer → Option MemoryCandidate
  | .notAsked => some projectCandidate
  | .failed => none
  | .output value => (candidateFromStructuredOutput env value).toOption

/-- One pattern of `promote_ready_patterns`. -/
def promotePattern
    (env : MemoryEnv)
    (answer : String → PromotionAnswer)
    (now : String)
    (store : MemoryStore)
    (pattern : String × MemoryCandidate) : MemoryStore :=
  let (patternKey, projectCandidate) := pattern
  if (store.activeGlobalForPattern patternKey).isSome then store
  else
    let episodes := store.supportingEpisodesForPattern patternKey
    if episodes.length < env.settings.globalMinProjects then store
    else
      match promotionCandidate env projectCandidate (answer patternKey) with
      | none => store
      | some candidate =>
        if validateGlobalCandidate env candidate episodes then
          store.upsertGlobalMemory (buildGlobalMemory env candidate patternKey episodes now)
            episodes
        else store

/-- `promote_ready_patterns`. -/
def promoteReadyPatterns
    (env : MemoryEnv)
    (answer : String → PromotionAnswer)
    (now : String)
    (store : MemoryStore) : MemoryStore :=
  (findPromotablePatterns env store).foldl (promotePattern env answer now) store

variable {env : MemoryEnv}

theorem mem_findPromotablePatterns
    {store : MemoryStore}
    {pattern : String × MemoryCandidate}
    (found : pattern ∈ findPromotablePatterns env store) :
    env.settings.globalMinProjects ≤
        ((store.activeProjects.filter (·.patternKey = pattern.1)).map
          (·.scopeKey)).eraseDups.length ∧
      ∃ first ∈ store.activeProjects, first.patternKey = pattern.1 ∧
        isPromotable first.toTaxonomy = true ∧ pattern.2 = candidateOf first := by
  obtain ⟨patternKey, _, promotable⟩ := List.mem_filterMap.mp found
  unfold promotablePattern at promotable
  simp only at promotable
  split at promotable
  · rename_i enough
    obtain ⟨first, fetched, promotable⟩ := Option.bind_eq_some_iff.mp promotable
    obtain ⟨member, own⟩ := List.mem_filter.mp (env.fetchone_mem _ _ fetched)
    simp only [decide_eq_true_eq] at own
    split at promotable
    · rename_i general
      cases promotable
      exact ⟨enough, first, member, own, general, rfl⟩
    · cases promotable
  · cases promotable

theorem promotePattern_cases
    (env : MemoryEnv)
    (answer : String → PromotionAnswer)
    (now : String)
    (store : MemoryStore)
    (pattern : String × MemoryCandidate) :
    promotePattern env answer now store pattern = store ∨
      ∃ candidate, (store.activeGlobalForPattern pattern.1).isSome = false ∧
        promotionCandidate env pattern.2 (answer pattern.1) = some candidate ∧
        promotePattern env answer now store pattern = store.upsertGlobalMemory
          (buildGlobalMemory env candidate pattern.1
            (store.supportingEpisodesForPattern pattern.1) now)
          (store.supportingEpisodesForPattern pattern.1) := by
  unfold promotePattern
  simp only
  split
  · exact Or.inl rfl
  · rename_i absent
    split
    · exact Or.inl rfl
    · split
      · exact Or.inl rfl
      · rename_i candidate chosen
        split
        · exact Or.inr ⟨candidate, by simpa using absent, chosen, rfl⟩
        · exact Or.inl rfl

variable {projectCandidate candidate : MemoryCandidate}

theorem promotionCandidate_output
    {value : CandidateOutput}
    (chosen : promotionCandidate env projectCandidate (.output value) = some candidate) :
    candidateFromStructuredOutput env value = .ok candidate :=
  toOption_eq_some chosen

theorem promotionCandidate_schemaVersion
    {answer : PromotionAnswer}
    (current : projectCandidate.schemaVersion = memorySchemaVersion)
    (chosen : promotionCandidate env projectCandidate answer = some candidate) :
    candidate.schemaVersion = memorySchemaVersion := by
  cases answer with
  | notAsked =>
      cases chosen
      exact current
  | failed =>
      cases chosen
  | output value =>
      exact (candidateFromStructuredOutput_ok (promotionCandidate_output chosen)).1

/-! ## Migration -/

/-- `list_memory_supporting_episodes`. -/
def listMemorySupportingEpisodes (store : MemoryStore) (memoryId : String) : List EpisodeRow :=
  (store.evidenceOf memoryId).filterMap store.loadEpisode

/-- `_legacy_replacement`. -/
def legacyReplacement
    (env : MemoryEnv)
    (memory : RepairMemory)
    (candidate : MemoryCandidate)
    (now : String) : RepairMemory × RepairMemoryEmbedding :=
  let nextVersion := memory.patternVersion + 1
  let replacement : RepairMemory :=
    { memory with
      toTaxonomy := candidate.toTaxonomy
      toGuidance := candidate.toGuidance
      memoryId := memory.memoryId ++ s!":zh-v{nextVersion}"
      patternVersion := nextVersion
      status := .active
      contentLocale := "zh-CN"
      supersedesId := memory.memoryId
      manualReason := "legacy_memory_migration"
      createdAt := now
      updatedAt := now
      lastReinforcedAt := if memory.lastReinforcedAt = "" then now else memory.lastReinforcedAt }
  (replacement,
    { memoryId := replacement.memoryId
      modelName := env.embeddingModelName
      modelRevision := env.embeddingModelRevision
      dimensions := env.embeddingDimensions
      vectorBlob := []
      sourceHash := env.sourceHash replacement
      status := .pending
      createdAt := now
      updatedAt := now })

/-- One memory of `migrate_legacy_memories`; `none` is an answer that never came. -/
def migrateLegacyMemory
    (env : MemoryEnv)
    (answer : String → Option CandidateOutput)
    (now : String)
    (store : MemoryStore)
    (memory : RepairMemory) : MemoryStore :=
  if store.listMemorySupportingEpisodes memory.memoryId = [] then
    (store.markLegacyMemoryNeedsReview memory.memoryId now).1
  else
    match (answer memory.memoryId).bind fun value =>
        (candidateFromStructuredOutput env value).toOption with
    | none => store.audit memory.memoryId "legacy_memory_migration_failed" "error" now
    | some candidate =>
      let (replacement, pendingEmbedding) := legacyReplacement env memory candidate now
      let (migrated, committed) :=
        store.commitLegacyMemoryMigration memory.memoryId replacement pendingEmbedding now
      if committed then migrated
      else migrated.audit memory.memoryId "legacy_memory_migration_failed" "store_error" now

/-- `list_legacy_memories`. -/
def listLegacyMemories (store : MemoryStore) (limit : Nat) : List RepairMemory :=
  ((store.memories.rows.filter isLegacy).insertionSort
    fun first second => first.createdAt ≤ second.createdAt).take limit

/-- `migrate_legacy_memories`. -/
def migrateLegacyMemories
    (env : MemoryEnv)
    (answer : String → Option CandidateOutput)
    (limit : Nat)
    (now : String)
    (store : MemoryStore) : MemoryStore :=
  (store.listLegacyMemories limit).foldl (migrateLegacyMemory env answer now) store

end MemoryStore

end MrAgent
