import Mathlib
import MrAgent.FallibleProgram
import MrAgent.KeySort
import MrAgent.RankedChoice
import MrAgent.RepairMemoryStore

namespace MrAgent

open FallibleProgram KeySort RankedChoice

/-!
# Selected hints

`retrieve.py` sorts the scored memories, keeps the first one of each pattern and
stops when enough are selected. The number of hints is a setting, which
`parse_repair_memory_settings` checks.
-/

/-- `_ScoredCandidate`, as far as the selection reads it. -/
structure ScoredCandidate where
  memory : RepairMemory
  total : Int
  exactFingerprintPoints : Int
  semanticPoints : Int
  currentProjectPoints : Int
  rejectionReason : String := ""
deriving DecidableEq

namespace ScoredCandidate

/-- `item.memory.pattern_key`. -/
def patternKey (item : ScoredCandidate) : String :=
  item.memory.patternKey

/-- The tuples that `sorted` compares. -/
abbrev Rank := ℤ ×ₗ ℤ ×ₗ ℤ ×ₗ ℤ ×ₗ ℚ ×ₗ ℚ ×ₗ String

end ScoredCandidate

/-- What the selection takes from Python. -/
structure HintEnv where
  /-- `datetime.fromisoformat`, where a time without an offset is UTC, as a timestamp. -/
  fromIsoformat : String → Option Time

namespace HintEnv

variable (env : HintEnv)

/-- `_parse_datetime`. -/
def parseDatetime (value : String) : Option Time :=
  let text := strip value.toList
  if text = [] then none
  else if text.getLast? = some 'Z' then
    env.fromIsoformat (String.ofList (text.dropLast ++ "+00:00".toList))
  else env.fromIsoformat (String.ofList text)

/-- `_sort_key`. -/
def sortKey (item : ScoredCandidate) : ScoredCandidate.Rank :=
  let timestamp := (env.parseDatetime item.memory.lastReinforcedAt).getD 0
  toLex (-item.total, toLex (-item.exactFingerprintPoints, toLex (-item.semanticPoints,
    toLex (-item.currentProjectPoints, toLex (-item.memory.confidence,
      toLex (-timestamp, item.memory.memoryId))))))

/-- The loop of `_deduplicate_and_select`. -/
def selectFrom (maxHints : Int) (selected : List ScoredCandidate) (seenPatterns : List String) :
    List ScoredCandidate → List ScoredCandidate
  | [] => selected
  | item :: rest =>
    if item.patternKey ∈ seenPatterns then selectFrom maxHints selected seenPatterns rest
    else
      let selected := selected ++ [item]
      if maxHints ≤ selected.length then selected
      else selectFrom maxHints selected (seenPatterns ++ [item.patternKey]) rest

/-- `_deduplicate_and_select`. -/
def deduplicateAndSelect (scored : List ScoredCandidate) (maxHints : Int) :
    List ScoredCandidate :=
  selectFrom maxHints [] [] (sortedBy env.sortKey scored)

/-- The memories that `retrieve_repair_hints` selects among those it has evaluated. -/
def selectedHints (evaluated : List ScoredCandidate) (maxHints : Int) : List ScoredCandidate :=
  env.deduplicateAndSelect (evaluated.filter (·.rejectionReason = "")) maxHints

end HintEnv

/-- `_as_int` on a whole number. -/
def settingAsInt (value : Int) (key : String) (minimum : Int := 1) : Except String Int := do
  raiseIf (value < minimum) s!"repair_memory.{key} must be >= {minimum}, got {value}"
  return value

/-- The setting `max_hints`. -/
def parseMaxHints (value : Option Int) : Except String Int :=
  settingAsInt (value.getD 3) "max_hints"

theorem parseMaxHints_positive
    {value : Option Int}
    {maxHints : Int}
    (admitted : parseMaxHints value = .ok maxHints) :
    1 ≤ maxHints := by
  rw [parseMaxHints, settingAsInt, bind_eq_ok] at admitted
  obtain ⟨_, checked, made⟩ := admitted
  rw [raiseIf_eq_ok, decide_eq_false_iff_not] at checked
  cases made
  exact not_lt.mp checked

namespace HintEnv

variable {env : HintEnv}

theorem selectFrom_eq
    {maxHints : Nat}
    {selected : List ScoredCandidate}
    (room : selected.length < maxHints)
    (seenPatterns : List String)
    (rest : List ScoredCandidate) :
    selectFrom maxHints selected seenPatterns rest =
      selected ++ (leaders ScoredCandidate.patternKey seenPatterns rest).take
        (maxHints - selected.length) := by
  induction rest generalizing selected seenPatterns with
  | nil => simp [selectFrom, leaders]
  | cons item rest ih =>
      rw [selectFrom, leaders]
      by_cases seen : item.patternKey ∈ seenPatterns
      · rw [if_pos seen, if_pos seen, ih room]
      rw [if_neg seen, if_neg seen]
      have one : maxHints - selected.length = maxHints - (selected ++ [item]).length + 1 := by
        rw [List.length_append, List.length_singleton]
        omega
      rw [one, List.take_succ_cons]
      by_cases full : maxHints ≤ (selected ++ [item]).length
      · rw [if_pos (by exact_mod_cast full), Nat.sub_eq_zero_of_le full, List.take_zero]
      · rw [if_neg (by exact_mod_cast full), ih (Nat.lt_of_not_le full),
          List.append_assoc, List.singleton_append]

theorem memoryId_of_sortKey
    {first second : ScoredCandidate}
    (same : env.sortKey first = env.sortKey second) :
    first.memory.memoryId = second.memory.memoryId := by
  simp only [sortKey, EmbeddingLike.apply_eq_iff_eq, Prod.mk.injEq] at same
  exact same.2.2.2.2.2.2

end HintEnv

/--
With any number of hints that the settings admit, the selection is the best
choice of distinct patterns, and the order of the memories does not matter.
-/
theorem hint_selection_is_ranked_choice
    (env : HintEnv)
    {value : Option Int}
    {maxHints : Int}
    (admitted : parseMaxHints value = .ok maxHints)
    {scored : List ScoredCandidate}
    (distinct : (scored.map (·.memory.memoryId)).Nodup) :
    Chosen ScoredCandidate.patternKey env.sortKey maxHints scored
        (env.deduplicateAndSelect scored maxHints) ∧
      ∀ order : List ScoredCandidate, order.Perm scored →
        env.deduplicateAndSelect order maxHints = env.deduplicateAndSelect scored maxHints := by
  have positive := parseMaxHints_positive admitted
  obtain ⟨limit, rfl⟩ := Int.eq_ofNat_of_zero_le (le_trans zero_le_one positive)
  constructor
  · rw [HintEnv.deduplicateAndSelect, HintEnv.selectFrom_eq (by exact_mod_cast positive)]
    exact chosen_take_leaders (sortedBy_perm env.sortKey scored)
      (sortedBy_pairwise env.sortKey scored) limit
  · intro order same
    have apart : ∀ first ∈ scored, ∀ second ∈ scored,
        env.sortKey first = env.sortKey second → first = second :=
      fun first firstMember second secondMember keys =>
        List.inj_on_of_nodup_map distinct firstMember secondMember
          (HintEnv.memoryId_of_sortKey keys)
    rw [HintEnv.deduplicateAndSelect, HintEnv.deduplicateAndSelect, sortedBy_of_perm apart same]

namespace HintSample

/-- A memory that scored some points. -/
def item (memoryId patternKey : String) (total : Int) : ScoredCandidate where
  memory := {
    language := "cpp"
    buildSystem := "cmake"
    failureFamily := "missing_header"
    rootCauseClass := "include"
    repairActionClass := "edit"
    problemPattern := ""
    applicability := []
    antiConditions := []
    repairGuidance := ""
    validationGuidance := []
    memoryId := memoryId
    scope := .project
    scopeKey := "group/project"
    patternKey := patternKey
    patternVersion := 1
    diagnosticFingerprint := ""
    causalTokens := []
    confidence := 3 / 5
    supportEpisodeCount := 1
    supportProjectCount := 1
    settledAttempts := 0
    immediateSuccesses := 0
    status := .active }
  total := total
  exactFingerprintPoints := 0
  semanticPoints := 0
  currentProjectPoints := 0

/-- No memory was reinforced at a time that can be read. -/
def env : HintEnv := ⟨fun _ => none⟩

end HintSample

open HintSample in
theorem default_selection_is_ranked :
    Chosen ScoredCandidate.patternKey env.sortKey 3 [item "m1" "p" 60, item "m2" "p" 70]
        (env.deduplicateAndSelect [item "m1" "p" 60, item "m2" "p" 70] 3) ∧
      ∀ order : List ScoredCandidate, order.Perm [item "m1" "p" 60, item "m2" "p" 70] →
        env.deduplicateAndSelect order 3 =
          env.deduplicateAndSelect [item "m1" "p" 60, item "m2" "p" 70] 3 :=
  @hint_selection_is_ranked_choice env none 3 rfl _ (by decide)

open HintSample in
/-- A limit of zero, which the settings refuse, does not keep a memory from being selected. -/
theorem zero_hints_select_one :
    env.deduplicateAndSelect [item "m1" "p" 60] 0 = [item "m1" "p" 60] ∧
      ¬ Chosen ScoredCandidate.patternKey env.sortKey 0 [item "m1" "p" 60]
        (env.deduplicateAndSelect [item "m1" "p" 60] 0) ∧
      parseMaxHints (some 0) = .error "repair_memory.max_hints must be >= 1, got 0" := by
  have selected : env.deduplicateAndSelect [item "m1" "p" 60] 0 = [item "m1" "p" 60] := by
    rfl
  refine ⟨selected, fun chosen => ?_, rfl⟩
  have few := chosen.few
  rw [selected] at few
  exact absurd few (by decide)

end MrAgent
