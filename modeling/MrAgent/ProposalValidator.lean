import MrAgent.ProjectPromptRules

namespace MrAgent

open FallibleProgram

/-!
# Validation of prompt proposals

`prompt_surface.py` and `validator.py`: which files a proposal may change, in
which families they belong together, and the checks that a proposal has to
pass before it is published. A change names its path and, beside it, the
family that the model says it belongs to.
-/

/-! ## The editable files -/

/-- `GLOBAL_IMPROVE_PROMPT_PATHS`. -/
def globalImprovePromptPaths : List String :=
  ["code_suggestions/pr_code_suggestions_prompts.toml",
    "code_suggestions/pr_code_suggestions_prompts_v2.toml",
    "code_suggestions/pr_code_suggestions_prompts_v3.toml",
    "code_suggestions/pr_code_suggestions_prompts_not_decoupled.toml",
    "code_suggestions/pr_code_suggestions_prompts_not_decoupled_v2.toml",
    "code_suggestions/pr_code_suggestions_prompts_not_decoupled_v3.toml",
    "code_suggestions/pr_code_suggestions_prompts_python.toml",
    "code_suggestions/pr_code_suggestions_prompts_python_v2.toml",
    "code_suggestions/pr_code_suggestions_prompts_python_v3.toml",
    "code_suggestions/pr_code_suggestions_reflect_prompts.toml",
    "code_suggestions/pr_code_suggestions_reflect_prompts_v2.toml",
    "code_suggestions/pr_code_suggestions_scenario_validator_prompts.toml",
    "pr_inline_selfcheck_prompts.toml",
    "pr_tier1_repair_prompts.toml"]

def settingsPath (path : String) : String :=
  "pr_agent/settings/" ++ path

/-- `GLOBAL_PROMPT_PATHS`. -/
def globalPromptPaths : List String :=
  globalImprovePromptPaths.map settingsPath

/-- `GENERATION_ALL`. -/
def generationAll : List String :=
  globalPromptPaths.filter fun path => containsText path "pr_code_suggestions_prompts"

/-- `GENERATION_PYTHON`. -/
def generationPython : List String :=
  generationAll.filter fun path => containsText path "_python"

/-- `REFLECTION_ALL`. -/
def reflectionAll : List String :=
  globalPromptPaths.filter fun path => containsText path "_reflect_prompts"

/-- `_FAMILY_TO_PATHS.get(family)`. -/
def familyToPaths (family : String) : Option (List String) :=
  if family = "generation_all" then some generationAll
  else if family = "generation_python" then some generationPython
  else if family = "reflection_all" then some reflectionAll
  else if family = "scenario_validator" then
    some [settingsPath "code_suggestions/pr_code_suggestions_scenario_validator_prompts.toml"]
  else if family = "inline_selfcheck" then some [settingsPath "pr_inline_selfcheck_prompts.toml"]
  else if family = "tier1_repair" then some [settingsPath "pr_tier1_repair_prompts.toml"]
  else none

/-- `is_allowed_prompt_path`. -/
def isAllowedPromptPath (path : String) : Bool :=
  path ∈ globalPromptPaths || path = projectSkillManifestPath

/-- `project_rule_repo_path`. -/
def projectRuleRepoPath (project : String) : Except String String := do
  let _ ← safeProjectParts project
  return projectSkillManifestPath

/-! ## Proposals -/

inductive CandidateScope where
  | project
  | global
deriving DecidableEq

/-- The part of `Evidence` that the validator reads. -/
structure PromptEvidence where
  suggestionId : String
  filePath : String
deriving DecidableEq

/-- `EligibleCandidate`, with the evidence of its cluster. -/
structure EligibleCandidate where
  scope : CandidateScope
  project : Option String
  evidence : List PromptEvidence
deriving DecidableEq

structure PromptFileChange where
  path : String
  family : String
  expectedBaseSha256 : String
  content : String
  evidenceIds : List String
deriving DecidableEq

structure PromptProposal where
  evidenceIds : List String
  changes : List PromptFileChange
deriving DecidableEq

/-- The files of `PromptWorkspace`; `none` is a file that is not there. -/
structure PromptFiles where
  files : List (String × Option String)

/-- `workspace.files.get(path)`. -/
def PromptFiles.get (workspace : PromptFiles) (path : String) : Option String :=
  (workspace.files.lookup path).join

structure ValidationReport where
  passed : Bool
  errors : List String
deriving DecidableEq

structure ProposalLimits where
  maxFiles : Int := 20
  maxPromptFileChars : Int := 200000
  maxDiffLines : Int := 600
  maxProjectRuleEdits : Int := 3

/-- `_evidence_index(candidates).get(evidence_id)`: the last one wins. -/
def evidenceIndex (candidates : List EligibleCandidate) (evidenceId : String) :
    Option PromptEvidence :=
  (candidates.flatMap (·.evidence)).reverse.find? (·.suggestionId = evidenceId)

/-- `_candidate_by_evidence(candidates).get(evidence_id)`: the last one wins. -/
def candidateByEvidence (candidates : List EligibleCandidate) (evidenceId : String) :
    Option EligibleCandidate :=
  (candidates.flatMap fun candidate =>
    candidate.evidence.map fun item => (item.suggestionId, candidate)).reverse.lookup evidenceId

/-- `_sha256`. -/
def contentHash (lib : PromptLibrary) (content : Option String) : String :=
  lib.sha256 (content.getD "<prompt-evolution-missing-file>")

/-- The error, if the condition holds. -/
def errorIf (condition : Bool) (reason : String) : List String :=
  if condition then [reason] else []

/-! ## Rules of a project -/

/-- The extension that `os.path.splitext` finds. -/
def splitExtension (path : String) : String :=
  let name := (path.toList.reverse.takeWhile (· ≠ '/')).reverse
  let extension := (name.reverse.takeWhile (· ≠ '.')).reverse
  let stem := name.take (name.length - extension.length - 1)
  if extension.length < name.length ∧ stem.any (· ≠ '.') then String.ofList ('.' :: extension)
  else ""

/-- `language_scope_for_file`. -/
def languageScopeForFile (lib : PromptLibrary) (filename : String) : Option String :=
  let extension := lib.lower (splitExtension filename)
  if extension ∈ [".py", ".pyw", ".pyi"] then some "python"
  else if extension ∈ [".cpp", ".cc", ".cxx", ".c", ".h", ".hpp", ".hxx", ".hh"] then some "cpp"
  else none

/-- `{rule.id: rule for rule in rules}.get(id)`. -/
def ruleById (rules : List PromptRule) (id : String) : Option PromptRule :=
  rules.reverse.find? (·.id = id)

/-- The rules of a manifest before the change; an empty one has none. -/
def baseRulesOf (lib : PromptLibrary) (baseContent project : String) :
    Except String ProjectRuleSet :=
  if baseContent = "" then .ok { project := project } else parseProjectRules lib baseContent project

/-- The checks of one changed rule. -/
def changedRuleError (baseRules : List PromptRule) (evidenceLanguages : List String)
    (rule : PromptRule) : Option String :=
  match ruleById baseRules rule.id with
  | none =>
    if rule.references ≠ [] then some "project_rule_reference_change"
    else if !(rule.languages.all (· ∈ evidenceLanguages) &&
        evidenceLanguages.all (· ∈ rule.languages)) then some "project_rule_language_mismatch"
    else none
  | some baseRule =>
    if rule.references ≠ baseRule.references then some "project_rule_reference_change"
    else if rule.targets ≠ baseRule.targets || rule.languages ≠ baseRule.languages then
      some "project_rule_scope_change"
    else if rule.instruction.length < baseRule.instruction.length then
      some "project_rule_instruction_weakened"
    else if baseRule.paths ≠ [] && !rule.paths.all (· ∈ baseRule.paths) then
      some "project_rule_paths_broadened"
    else if !baseRule.excludePaths.all (· ∈ rule.excludePaths) then
      some "project_rule_exclusion_removed"
    else if !(rule.languages.all (· ∈ evidenceLanguages) &&
        evidenceLanguages.all (· ∈ rule.languages)) then some "project_rule_language_mismatch"
    else none

/-- `_validate_project_rule_languages`. -/
def validateProjectRuleLanguages
    (lib : PromptLibrary)
    (candidates : List EligibleCandidate)
    (change : PromptFileChange)
    (baseContent project : String)
    (proposed : ProjectRuleSet) : List String :=
  match baseRulesOf lib baseContent project with
  | .error _ => ["project_rule_base_invalid"]
  | .ok base =>
    if base.rules.any fun rule => rule.id ∉ proposed.rules.map (·.id) then ["project_rule_deletion"]
    else if base.name ≠ proposed.name || base.description ≠ proposed.description ||
        base.project ≠ proposed.project then ["project_skill_metadata_change"]
    else
      let changed := proposed.rules.filter fun rule => ruleById base.rules rule.id ≠ some rule
      let languages := (change.evidenceIds.filterMap (evidenceIndex candidates)).filterMap
        fun evidence => languageScopeForFile lib evidence.filePath
      (changed.findSome? (changedRuleError base.rules languages)).toList

/-- The identifiers of the rules in which two manifests differ. -/
def changedRuleIds (before after : List PromptRule) : List String :=
  ((before.map (·.id) ++ after.map (·.id)).eraseDups).filter fun id =>
    ruleById before id ≠ ruleById after id

/-- `semantic_skill_diff(...).edit_count`. -/
def semanticEditCount (lib : PromptLibrary) (baseContent content project : String) :
    Except String Nat := do
  let base ← parseProjectRules lib baseContent project
  let candidate ← parseProjectRules lib content project
  return (changedRuleIds base.rules candidate.rules).length

/-! ## The checks of one change -/

/-- The scope of one piece of evidence. -/
def evidenceError
    (candidates : List EligibleCandidate)
    (change : PromptFileChange)
    (evidenceId : String) : Except String (List String) :=
  match evidenceIndex candidates evidenceId, candidateByEvidence candidates evidenceId with
  | none, _ => .ok [s!"unknown_evidence:{evidenceId}"]
  | some _, none => .ok [s!"unresolved_candidate:{evidenceId}"]
  | some evidence, some candidate =>
    match candidate.scope with
    | .project => do
      let expectedPath ← projectRuleRepoPath (candidate.project.getD "")
      return errorIf (change.path ≠ expectedPath) s!"scope_violation:{evidenceId}:project_path" ++
        errorIf (change.family ≠ "project_rule") s!"scope_violation:{evidenceId}:project_family"
    | .global =>
      .ok (errorIf (change.family = "project_rule")
          s!"scope_violation:{evidenceId}:global_project_rule" ++
        errorIf (change.family = "generation_python" && !(".py".toList <:+ evidence.filePath.toList))
          s!"scope_violation:{evidenceId}:python_file")

/-- The scope of all evidence of a change. -/
def evidenceErrors (candidates : List EligibleCandidate) (change : PromptFileChange) :
    Except String (List String) := do
  let scopes ← change.evidenceIds.mapM (evidenceError candidates change)
  return errorIf change.evidenceIds.isEmpty s!"empty_evidence:{change.path}" ++ scopes.flatten

/-- `_base_template_variables`. -/
def baseTemplateVariables (lib : PromptLibrary) (baseContent : Option String) : List String :=
  match baseContent with
  | none => []
  | some base =>
    if base = "" then []
    else
      match lib.jinjaParse base with
      | .error _ => []
      | .ok _ => (lib.findUndeclaredVariables base).getD []

/-- The template of a change, and the variables it uses. -/
def jinjaErrors (lib : PromptLibrary) (baseContent : Option String) (content : String) :
    List String :=
  match lib.jinjaParse content with
  | .error kind => [s!"jinja_invalid:{kind}"]
  | .ok _ =>
    let unexpected := ((lib.findUndeclaredVariables content).getD []).filter fun name =>
      name ≠ "project_prompt_rules" && name ∉ baseTemplateVariables lib baseContent
    errorIf (!unexpected.isEmpty) ("jinja_new_variables:" ++
      ",".intercalate (unexpected.eraseDups.insertionSort (· ≤ ·)))

/-- The projects of the candidates behind a change. -/
def candidateProjects
    (candidates : List EligibleCandidate)
    (change : PromptFileChange)
    (select : EligibleCandidate → Bool) : List (Option String) :=
  (((change.evidenceIds.filterMap (candidateByEvidence candidates)).filter select).map
    (·.project)).eraseDups

/-- The strict parse of a manifest. -/
def projectRuleErrors
    (lib : PromptLibrary)
    (candidates : List EligibleCandidate)
    (baseContent : Option String)
    (change : PromptFileChange) : List String :=
  if change.family = "project_rule" then
    match candidateProjects candidates change fun candidate => candidate.scope = .project with
    | [some project] =>
      match baseContent with
      | none => ["project_skill_not_opted_in"]
      | some base =>
        match parseProjectRules lib change.content project with
        | .ok proposed => validateProjectRuleLanguages lib candidates change base project proposed
        | .error reason =>
          if containsText reason "project rule schema/project mismatch" then
            ["project_rule_path_mismatch"]
          else [s!"project_rule_invalid:{reason}"]
    | _ => ["project_rule_candidate_mismatch"]
  else []

/-- The files that must change together. -/
def mirrorErrors (proposal : PromptProposal) (change : PromptFileChange) : List String :=
  match familyToPaths change.family with
  | none => []
  | some paths =>
    errorIf (change.path ∈ paths && 1 < paths.length &&
        !paths.all (· ∈ proposal.changes.map (·.path)))
      s!"mirror_family_incomplete:{change.family}"

/-- `_validate_change`. -/
def validateChange
    (lib : PromptLibrary)
    (limits : ProposalLimits)
    (proposal : PromptProposal)
    (candidates : List EligibleCandidate)
    (workspace : PromptFiles)
    (change : PromptFileChange) : Except String (List String) := do
  let scope ← evidenceErrors candidates change
  let baseContent := workspace.get change.path
  let hash := errorIf (change.expectedBaseSha256 ≠ contentHash lib baseContent)
    "base_hash_mismatch"
  if !isAllowedPromptPath change.path then return scope ++ ["path_not_allowed"]
  else if change.content = "" then return scope ++ hash ++ ["empty_content"]
  else
    match lib.tomlLoads change.content with
    | .error _ => return scope ++ hash ++ ["toml_invalid"]
    | .ok _ =>
      return scope ++ hash ++ jinjaErrors lib baseContent change.content ++
        errorIf (limits.maxPromptFileChars < change.content.length) "file_too_large" ++
        errorIf (some change.content = baseContent) "unchanged_content" ++
        errorIf (lib.searchSecrets change.content) "secrets_detected" ++
        projectRuleErrors lib candidates baseContent change ++
        mirrorErrors proposal change

/-! ## The checks of a proposal -/

/-- `_changed_content_lines`. -/
def changedContentLines (lib : PromptLibrary) (baseContent : Option String) (content : String) :
    Nat :=
  (lib.unifiedDiff (baseContent.getD "") content).countP fun line =>
    ("+".toList <+: line.toList && !("+++".toList <+: line.toList)) ||
      ("-".toList <+: line.toList && !("---".toList <+: line.toList))

/-- The number of rules that a change of the manifest edits. -/
def ruleEditErrors
    (lib : PromptLibrary)
    (limits : ProposalLimits)
    (candidates : List EligibleCandidate)
    (workspace : PromptFiles)
    (change : PromptFileChange) : List String :=
  match workspace.get change.path with
  | none => []
  | some base =>
    if change.family ≠ "project_rule" then []
    else
      match candidateProjects candidates change fun _ => true with
      | [some project] =>
        match semanticEditCount lib base change.content project with
        | .ok count =>
          errorIf (limits.maxProjectRuleEdits < count) "textual_learning_rate_exceeded"
        | .error _ => []
      | _ => []

/-- `validate_proposal`. -/
def validateProposal
    (lib : PromptLibrary)
    (limits : ProposalLimits)
    (proposal : PromptProposal)
    (candidates : List EligibleCandidate)
    (workspace : PromptFiles) : Except String ValidationReport := do
  let changeIds := proposal.changes.flatMap (·.evidenceIds)
  let changes ← proposal.changes.mapM (validateChange lib limits proposal candidates workspace)
  let changedLines := (proposal.changes.map fun change =>
    changedContentLines lib (workspace.get change.path) change.content).sum
  let errors :=
    errorIf proposal.changes.isEmpty "empty_changes" ++
    errorIf (limits.maxFiles < proposal.changes.length) "too_many_files" ++
    errorIf (!(proposal.evidenceIds.all (· ∈ changeIds) &&
      changeIds.all (· ∈ proposal.evidenceIds))) "evidence_id_mismatch" ++
    (proposal.evidenceIds.filter fun evidenceId =>
      (evidenceIndex candidates evidenceId).isNone).map (fun evidenceId =>
        s!"unknown_evidence:{evidenceId}") ++
    changes.flatten ++
    errorIf (limits.maxDiffLines < changedLines) "diff_too_large" ++
    proposal.changes.flatMap (ruleEditErrors lib limits candidates workspace)
  return { passed := errors.isEmpty, errors := errors.eraseDups.insertionSort (· ≤ ·) }

/-! ## What a proposal that passes has been checked for -/

@[simp]
theorem errorIf_eq_nil {condition : Bool} {reason : String} :
    errorIf condition reason = [] ↔ condition = false := by
  cases condition with
  | false =>
      simp [errorIf]
  | true =>
      simp [errorIf]

section Passed

variable {lib : PromptLibrary} {limits : ProposalLimits} {proposal : PromptProposal}
  {candidates : List EligibleCandidate} {workspace : PromptFiles} {change : PromptFileChange}

/-- A change without errors. -/
structure CleanChange
    (lib : PromptLibrary)
    (limits : ProposalLimits)
    (proposal : PromptProposal)
    (candidates : List EligibleCandidate)
    (workspace : PromptFiles)
    (change : PromptFileChange) : Prop where
  evidence : evidenceErrors candidates change = .ok []
  allowed : isAllowedPromptPath change.path = true
  rules : projectRuleErrors lib candidates (workspace.get change.path) change = []
  mirror : mirrorErrors proposal change = []
  edits : ruleEditErrors lib limits candidates workspace change = []

theorem validateChange_nil
    (clean : validateChange lib limits proposal candidates workspace change = .ok []) :
    evidenceErrors candidates change = .ok [] ∧ isAllowedPromptPath change.path = true ∧
      projectRuleErrors lib candidates (workspace.get change.path) change = [] ∧
      mirrorErrors proposal change = [] := by
  unfold validateChange at clean
  obtain ⟨scope, checked, clean⟩ := bind_eq_ok.mp clean
  simp only at clean
  split at clean
  · cases scope <;> cases clean
  · rename_i allowed
    split at clean
    · simp [pure, Except.pure] at clean
    · split at clean
      · simp [pure, Except.pure] at clean
      · simp only [pure, Except.pure, Except.ok.injEq, List.append_eq_nil_iff] at clean
        obtain ⟨⟨⟨⟨⟨⟨⟨noScope, _⟩, _⟩, _⟩, _⟩, _⟩, rules⟩, mirror⟩ := clean
        rw [noScope] at checked
        refine ⟨checked, ?_, rules, mirror⟩
        simpa using allowed

theorem cleanChange_of_passed
    {report : ValidationReport}
    (validated : validateProposal lib limits proposal candidates workspace = .ok report)
    (passed : report.passed = true)
    (member : change ∈ proposal.changes) :
    CleanChange lib limits proposal candidates workspace change := by
  unfold validateProposal at validated
  obtain ⟨results, checked, made⟩ := bind_eq_ok.mp validated
  cases made
  simp only [List.isEmpty_iff, List.append_eq_nil_iff] at passed
  obtain ⟨⟨⟨_, flat⟩, _⟩, edits⟩ := passed
  obtain ⟨result, listed, found⟩ := mapM_mem checked member
  rw [List.flatten_eq_nil_iff.mp flat result listed] at found
  obtain ⟨evidence, allowed, rules, mirror⟩ := validateChange_nil found
  exact ⟨evidence, allowed, rules, mirror, List.flatMap_eq_nil_iff.mp edits change member⟩

theorem scope_of_clean
    (evidence : evidenceErrors candidates change = .ok [])
    (label : change.family = "project_rule") :
    change.evidenceIds ≠ [] ∧ ∀ evidenceId ∈ change.evidenceIds, ∃ candidate,
      candidateByEvidence candidates evidenceId = some candidate ∧ candidate.scope = .project := by
  unfold evidenceErrors at evidence
  obtain ⟨scopes, checked, made⟩ := bind_eq_ok.mp evidence
  simp only [pure, Except.pure, Except.ok.injEq, List.append_eq_nil_iff, errorIf_eq_nil] at made
  obtain ⟨present, flat⟩ := made
  refine ⟨by simpa using present, ?_⟩
  intro evidenceId member
  obtain ⟨result, listed, found⟩ := mapM_mem checked member
  rw [List.flatten_eq_nil_iff.mp flat result listed] at found
  unfold evidenceError at found
  split at found
  · cases found
  · cases found
  · rename_i candidate _ known
    refine ⟨candidate, known, ?_⟩
    cases scope : candidate.scope with
    | project =>
        rfl
    | global =>
        rw [scope] at found
        simp only [Except.ok.injEq, List.append_eq_nil_iff, errorIf_eq_nil, label] at found
        simp at found

end Passed

end MrAgent
