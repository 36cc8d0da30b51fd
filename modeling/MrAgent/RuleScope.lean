import Mathlib
import MrAgent.GlobPieces
import MrAgent.ProposalValidator

namespace MrAgent

open FallibleProgram GlobPieces

/-!
# The scope of a rule

A rule applies to some files, languages and targets. An edit of a rule that the
validator lets through must not make it apply to more of them.
-/

/-- `INTERNAL_IMPROVE_TARGETS`. -/
def internalImproveTargets : List String :=
  ["generation", "reflection", "scenario_validator", "inline_selfcheck", "tier1_repair"]

/-- `_public_target`. -/
def publicTarget (target : String) : String :=
  if target ∈ internalImproveTargets then "improve" else target

/-- `_path_matches`. -/
def pathMatches (pattern filePath : String) : Bool :=
  readAll (pieces (forwardSlashes pattern).toList)
    ((forwardSlashes filePath).toList.dropWhile (· = '/'))

/-- `_matched_files`. -/
def matchedFiles (rule : PromptRule) (files : List String) : List String :=
  files.filter fun filePath =>
    let included := rule.paths = [] || rule.paths.any fun pattern => pathMatches pattern filePath
    let excluded := rule.excludePaths.any fun pattern => pathMatches pattern filePath
    included && !excluded

/-- The languages of a rule; none stand for all. -/
def matchesLanguages (rule : PromptRule) (languages : List String) : Bool :=
  rule.languages = [] || languages.any (· ∈ rule.languages)

/-- `filter_project_rules`. -/
def filterProjectRules (ruleSet : ProjectRuleSet) (languages files : List String) :
    ProjectRuleSet :=
  { ruleSet with
    rules := ruleSet.rules.filter fun rule =>
      matchesLanguages rule languages && (files = [] || matchedFiles rule files ≠ []) }

/-- A rule of the set applies to a file in some languages, for some target. -/
def ProjectRuleSet.Applies
    (ruleSet : ProjectRuleSet)
    (languages targets : List String)
    (filePath : String)
    (rule : PromptRule) : Prop :=
  rule ∈ (filterProjectRules ruleSet languages [filePath]).rules ∧
    ∃ target ∈ targets, publicTarget target ∈ rule.targets

/-- Where the proposed rule applies, the rule with its id applied before. -/
def NeverBroadens (base proposed : ProjectRuleSet) : Prop :=
  ∀ before ∈ base.rules, ∀ after ∈ proposed.rules, after.id = before.id →
    ∀ languages targets filePath, proposed.Applies languages targets filePath after →
      base.Applies languages targets filePath before

/-- No rule with paths is left without any. -/
def KeepsPaths (base proposed : ProjectRuleSet) : Prop :=
  ∀ before ∈ base.rules, ∀ after ∈ proposed.rules, after.id = before.id →
    after.paths = [] → before.paths = []

/-! ## What an accepted edit keeps -/

variable {languages targets : List String} {filePath : String}

theorem applies_iff
    {ruleSet : ProjectRuleSet}
    {rule : PromptRule}
    (member : rule ∈ ruleSet.rules) :
    ruleSet.Applies languages targets filePath rule ↔
      matchesLanguages rule languages = true ∧
        (rule.paths = [] ∨ ∃ pattern ∈ rule.paths, pathMatches pattern filePath = true) ∧
        (∀ pattern ∈ rule.excludePaths, pathMatches pattern filePath = false) ∧
        ∃ target ∈ targets, publicTarget target ∈ rule.targets := by
  simp [ProjectRuleSet.Applies, filterProjectRules, matchedFiles, member, and_assoc,
    List.filter_cons]

/-- A changed rule that passes keeps its targets and languages, and no path is added. -/
structure ScopeKept (before after : PromptRule) : Prop where
  targets : after.targets = before.targets
  languages : after.languages = before.languages
  paths : before.paths ≠ [] → after.paths ⊆ before.paths
  excludePaths : before.excludePaths ⊆ after.excludePaths

variable {before after : PromptRule}

theorem scopeKept_of_no_error
    {baseRules : List PromptRule}
    {languages : List String}
    (found : ruleById baseRules after.id = some before)
    (passed : changedRuleError baseRules languages after = none) :
    ScopeKept before after := by
  rw [changedRuleError, found] at passed
  simp only at passed
  split_ifs at passed with references scope instruction paths exclusion _
  rw [Bool.or_eq_true, not_or, decide_eq_true_eq, decide_eq_true_eq, not_not, not_not] at scope
  refine ⟨scope.1, scope.2, fun some_paths pattern member => ?_, fun pattern member => ?_⟩
  · have known : after.paths.all (· ∈ before.paths) = true := by
      simpa [some_paths] using paths
    exact of_decide_eq_true (List.all_eq_true.mp known pattern member)
  · rw [Bool.not_eq_true', Bool.not_eq_false] at exclusion
    exact of_decide_eq_true (List.all_eq_true.mp exclusion pattern member)

theorem ScopeKept.refl (rule : PromptRule) : ScopeKept rule rule :=
  ⟨rfl, rfl, fun _ => List.Subset.refl _, List.Subset.refl _⟩

variable {base proposed : ProjectRuleSet}

theorem ScopeKept.applies
    (kept : ScopeKept before after)
    (beforeMember : before ∈ base.rules)
    (afterMember : after ∈ proposed.rules)
    (pathsLeft : after.paths = [] → before.paths = [])
    (applies : proposed.Applies languages targets filePath after) :
    base.Applies languages targets filePath before := by
  rw [applies_iff afterMember] at applies
  obtain ⟨spoken, included, spared, target, asked, addressed⟩ := applies
  rw [applies_iff beforeMember]
  rw [kept.targets] at addressed
  refine ⟨?_, ?_, fun pattern member => spared pattern (kept.excludePaths member),
    target, asked, addressed⟩
  · rw [matchesLanguages, kept.languages] at spoken
    exact spoken
  · by_cases none : before.paths = []
    · exact Or.inl none
    rcases included with all | ⟨pattern, member, read⟩
    · exact absurd (pathsLeft all) none
    · exact Or.inr ⟨pattern, kept.paths none member, read⟩

/-! ## A rule without paths -/

/-- A path that is deeper than any of some globs. -/
def deepPath (patterns : List String) : String :=
  String.ofList (lineFeeds (patterns.map (·.length)).sum)

theorem forwardSlashes_lineFeeds
    (depth : Nat) :
    (forwardSlashes (String.ofList (lineFeeds depth))).toList.dropWhile (· = '/') =
      lineFeeds depth := by
  have plain : (lineFeeds depth).map (fun c => if c = '\\' then '/' else c) = lineFeeds depth := by
    induction depth with
    | zero => rfl
    | succ depth ih =>
        rw [lineFeeds, List.map_cons, List.map_cons, ih]
        rfl
  rw [forwardSlashes, String.toList_ofList, String.toList_ofList, plain]
  cases depth <;> rfl

variable {patterns : List String}

theorem pathMatches_deepPath
    {pattern : String}
    (member : pattern ∈ patterns) :
    pathMatches pattern (deepPath patterns) = false := by
  rw [pathMatches, deepPath, forwardSlashes_lineFeeds]
  refine not_readAll_of_deep ((length_pieces_le _).trans ?_) ⟨_, Nat.le_refl _, Or.inl rfl⟩
  rw [forwardSlashes, String.toList_ofList, List.length_map, String.length_toList]
  exact List.single_le_sum (fun _ _ => Nat.zero_le _) _ (List.mem_map_of_mem member)

theorem exists_applies_of_no_paths
    {proposed : ProjectRuleSet}
    {rule : PromptRule}
    (member : rule ∈ proposed.rules)
    (addressed : ∃ target ∈ rule.targets, target ∈ publicRuleTargets)
    (noPaths : rule.paths = [])
    (excluded : rule.excludePaths ⊆ patterns) :
    ∃ languages targets, proposed.Applies languages targets (deepPath patterns) rule := by
  obtain ⟨target, named, isPublic⟩ := addressed
  refine ⟨rule.languages, [target], (applies_iff member).mpr ⟨?_, Or.inl noPaths, ?_, ?_⟩⟩
  · rw [matchesLanguages]
    cases rule.languages <;> simp
  · exact fun pattern isExcluded => pathMatches_deepPath (excluded isExcluded)
  · have itself : publicTarget target = target := by
      simp only [publicRuleTargets, List.mem_cons, List.not_mem_nil, or_false] at isPublic
      rcases isPublic with rfl | rfl <;> rfl
    rw [← itself] at named
    exact ⟨target, List.mem_singleton_self _, named⟩

/-! ## Rules that are parsed -/

theorem strictStringList_ne_nil
    {raw : Option TomlValue}
    {fieldName : String}
    {values : List String}
    (accepted : strictStringList raw fieldName true = .ok values) :
    values ≠ [] := by
  unfold strictStringList at accepted
  split at accepted
  · rename_i items
    simp only [bind_eq_ok, raiseIf_eq_ok, Bool.true_and] at accepted
    obtain ⟨_, some_items, read, mapped, _, _, made⟩ := accepted
    cases made
    rintro rfl
    cases items with
    | nil => cases some_items
    | cons item rest =>
        obtain ⟨value, member, _⟩ := mapM_mem mapped List.mem_cons_self
        cases member
  · cases accepted
  · cases accepted

theorem targets_scanRule
    {lib : PromptLibrary}
    {scan next : RuleScan}
    {raw : TomlValue}
    (known : ∀ rule ∈ scan.rules, ∃ target ∈ rule.targets, target ∈ publicRuleTargets)
    (scanned : scanRule lib scan raw = .ok next) :
    ∀ rule ∈ next.rules, ∃ target ∈ rule.targets, target ∈ publicRuleTargets := by
  unfold scanRule at scanned
  split at scanned
  · simp only [bind_eq_ok, raiseIf_eq_ok] at scanned
    obtain ⟨_, _, targets, read, languages, _, paths, _, excludePaths, _, references, _, scanned⟩ :=
      scanned
    obtain ⟨instruction, _, ruleId, _, _, checked, _, _, _, _, made⟩ := scanned
    simp only [Bool.or_eq_false_iff, List.any_eq_false, decide_eq_true_eq, not_not] at checked
    cases made
    intro rule member
    rcases List.mem_append.mp member with old | new
    · exact known rule old
    · rw [List.mem_singleton.mp new]
      obtain ⟨target, rest, rfl⟩ := List.exists_cons_of_ne_nil (strictStringList_ne_nil read)
      exact ⟨target, List.mem_cons_self, checked.1.2 target List.mem_cons_self⟩
  · cases scanned

variable {baseContent project : String}

theorem baseRulesOf_ok
    {lib : PromptLibrary}
    {base : ProjectRuleSet}
    (parsed : baseRulesOf lib baseContent project = .ok base) :
    (base.rules.map (·.id)).Nodup ∧
      ∀ rule ∈ base.rules, ∃ target ∈ rule.targets, target ∈ publicRuleTargets := by
  unfold baseRulesOf at parsed
  split at parsed
  · cases parsed
    exact ⟨List.nodup_nil, fun rule member => absurd member List.not_mem_nil⟩
  · refine ⟨(parseProjectRules_ok parsed).2, ?_⟩
    unfold parseProjectRules at parsed
    simp only [bind_eq_ok, raiseIf_eq_ok] at parsed
    obtain ⟨_, _, data, _, _, _, _, _, name, _, parsed⟩ := parsed
    obtain ⟨description, _, _, _, rawRules, _, scan, scanned, _, _, made⟩ := parsed
    cases made
    refine foldlM_invariant (fun scan : RuleScan => ∀ rule ∈ scan.rules,
      ∃ target ∈ rule.targets, target ∈ publicRuleTargets) ?_ scanned
      fun rule member => absurd member List.not_mem_nil
    intro state item next known stepped
    exact targets_scanRule known stepped

/-! ## Accepted edits -/

theorem ruleById_of_mem
    {rules : List PromptRule}
    (distinct : (rules.map (·.id)).Nodup)
    {rule : PromptRule}
    (member : rule ∈ rules) :
    ruleById rules rule.id = some rule := by
  cases found : ruleById rules rule.id with
  | none =>
      rw [ruleById, List.find?_eq_none] at found
      exact absurd (decide_eq_true rfl) (found rule (List.mem_reverse.mpr member))
  | some other =>
      rw [ruleById] at found
      have otherMember := List.mem_reverse.mp (List.mem_of_find?_eq_some found)
      have ids : other.id = rule.id := by
        simpa using List.find?_some found
      rw [List.inj_on_of_nodup_map distinct otherMember member ids]

theorem kept_of_no_errors
    {lib : PromptLibrary}
    {candidates : List EligibleCandidate}
    {change : PromptFileChange}
    (parsed : baseRulesOf lib baseContent project = .ok base)
    (clean : validateProjectRuleLanguages lib candidates change baseContent project proposed = []) :
    (∀ before ∈ base.rules, before.id ∈ proposed.rules.map (·.id)) ∧
      ∀ before ∈ base.rules, ∀ after ∈ proposed.rules, after.id = before.id →
        ScopeKept before after := by
  rw [validateProjectRuleLanguages, parsed] at clean
  simp only at clean
  split_ifs at clean with deletion metadata
  constructor
  · intro before member
    by_contra removed
    exact deletion (List.any_eq_true.mpr ⟨before, member, decide_eq_true removed⟩)
  · intro before beforeMember after afterMember ids
    have found : ruleById base.rules after.id = some before := by
      rw [ids]
      exact ruleById_of_mem (baseRulesOf_ok parsed).1 beforeMember
    by_cases same : before = after
    · rw [same]
      exact ScopeKept.refl after
    · rw [Option.toList_eq_nil_iff, List.findSome?_eq_none_iff] at clean
      refine scopeKept_of_no_error found (clean after (List.mem_filter.mpr ⟨afterMember, ?_⟩))
      exact decide_eq_true fun unchanged => same (Option.some.inj (found.symm.trans unchanged))

/--
An edit without errors removes no rule, and it broadens none exactly when no
rule with paths is left without any.
-/
theorem accepted_edit_narrows_iff
    (lib : PromptLibrary)
    (candidates : List EligibleCandidate)
    (change : PromptFileChange)
    {baseContent project : String}
    {base proposed : ProjectRuleSet}
    (parsed : baseRulesOf lib baseContent project = .ok base)
    (clean : validateProjectRuleLanguages lib candidates change baseContent project proposed = []) :
    (∀ before ∈ base.rules, before.id ∈ proposed.rules.map (·.id)) ∧
      (NeverBroadens base proposed ↔ KeepsPaths base proposed) := by
  obtain ⟨present, kept⟩ := kept_of_no_errors parsed clean
  refine ⟨present, ?_, ?_⟩
  · intro narrow before beforeMember after afterMember ids noPaths
    have scope := kept before beforeMember after afterMember ids
    have addressed := (baseRulesOf_ok parsed).2 before beforeMember
    rw [← scope.targets] at addressed
    obtain ⟨languages, targets, applies⟩ := exists_applies_of_no_paths afterMember addressed noPaths
      (List.subset_append_right before.paths after.excludePaths)
    have applied := narrow before beforeMember after afterMember ids _ _ _ applies
    rcases ((applies_iff beforeMember).mp applied).2.1 with none | ⟨pattern, member, read⟩
    · exact none
    · rw [pathMatches_deepPath (List.mem_append_left _ member)] at read
      cases read
  · intro pathsLeft before beforeMember after afterMember ids languages targets filePath applies
    exact (kept before beforeMember after afterMember ids).applies beforeMember afterMember
      (pathsLeft before beforeMember after afterMember ids) applies

namespace RuleSample

/-- A manifest with one rule for two globs. -/
def manifest : String :=
  "schema_version=1\nproject=\"a/b\"\n[[rules]]\nid=\"r\"\ntargets=[\"improve\"]\n" ++
    "languages=[\"python\"]\npaths=[\"src/**\",\"x/*\"]\ninstruction=\"Check.\"\n"

/-- What the libraries make of it. -/
def lib : PromptLibrary where
  sha256 := fun _ => "272925bb33ccdfb2635bd3025bcd0cf30d34cd9a8b8b2db9c2186f9db375cded"
  tomlLoads := fun _ => .ok
    [("schema_version", .int 1), ("project", .str "a/b"),
      ("rules", .array [.table
        [("id", .str "r"), ("targets", .array [.str "improve"]),
          ("languages", .array [.str "python"]), ("paths", .array [.str "src/**", .str "x/*"]),
          ("instruction", .str "Check.")]])]
  casefold := fun text => String.ofList (text.toList.map Char.toLower)
  lower := fun text => String.ofList (text.toList.map Char.toLower)
  jinjaParse := fun _ => .ok ()
  findUndeclaredVariables := fun _ => some []
  searchSecrets := fun _ => false
  unifiedDiff := fun _ _ => []

def rule (paths : List String) : PromptRule where
  id := "r"
  targets := ["improve"]
  instruction := "Check."
  languages := ["python"]
  paths := paths

def ruleSet (paths : List String) : ProjectRuleSet where
  project := "a/b"
  rules := [rule paths]
  manifestHash := "272925bb33ccdfb2635bd3025bcd0cf30d34cd9a8b8b2db9c2186f9db375cded"

def candidate : EligibleCandidate where
  scope := .project
  project := some "a/b"
  evidence := [{ suggestionId := "s1", filePath := "src/a.py" }]

def change : PromptFileChange where
  path := projectSkillManifestPath
  family := "project_rule"
  expectedBaseSha256 := "272925bb33ccdfb2635bd3025bcd0cf30d34cd9a8b8b2db9c2186f9db375cded"
  content := ""
  evidenceIds := ["s1"]

/-- The errors of a proposal that gives the rule other paths. -/
def errors (paths : List String) : List String :=
  validateProjectRuleLanguages lib [candidate] change manifest "a/b" (ruleSet paths)

theorem parsed : baseRulesOf lib manifest "a/b" = .ok (ruleSet ["src/**", "x/*"]) := by
  decide +kernel

end RuleSample

open RuleSample in
theorem one_glob_less_narrows :
    NeverBroadens (ruleSet ["src/**", "x/*"]) (ruleSet ["src/**"]) := by
  have clean : errors ["src/**"] = [] := by
    rw [errors, validateProjectRuleLanguages, parsed]
    decide +kernel
  refine (accepted_edit_narrows_iff lib [candidate] change parsed clean).2.mpr ?_
  intro before _ after member _ noPaths
  rw [List.mem_singleton.mp member] at noPaths
  cases noPaths

open RuleSample in
/-- A rule that loses all its globs passes, and applies to every file from then on. -/
theorem rule_without_globs_is_broader :
    errors [] = [] ∧ ¬ NeverBroadens (ruleSet ["src/**", "x/*"]) (ruleSet []) := by
  constructor
  · rw [errors, validateProjectRuleLanguages, parsed]
    decide +kernel
  · intro narrow
    have applied := narrow (rule ["src/**", "x/*"]) List.mem_cons_self (rule [])
      List.mem_cons_self rfl ["python"] ["improve"] "docs/conf.py" (by
        rw [applies_iff List.mem_cons_self]
        decide +kernel)
    rw [applies_iff List.mem_cons_self] at applied
    revert applied
    decide +kernel

end MrAgent
