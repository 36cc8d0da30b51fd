import MrAgent.GroupedList
import MrAgent.ProposalValidator

namespace MrAgent

/-!
# What a validated proposal is confined to

The whitelist looks at the path of a change, the checks of families and rules
at the label beside it. A proposal that passes is confined to its families and
to the rules of one project exactly if its labels are right, no path occurs
twice, and a manifest that was empty gets no more rules than may be edited.
-/

/-! ## Families -/

/-- The files of the family that a change declares. -/
def declaredPaths (family : String) : List String :=
  if family = "project_rule" then [projectSkillManifestPath] else (familyToPaths family).getD []

/-- The families whose files change together. -/
def mirrorFamilies : List (List String) :=
  [generationAll, generationPython, reflectionAll]

theorem mem_generationAll {path : String} :
    path ∈ generationAll ↔
      path ∈ globalPromptPaths ∧ containsText path "pr_code_suggestions_prompts" = true := by
  unfold generationAll
  exact List.mem_filter

theorem mem_generationPython {path : String} :
    path ∈ generationPython ↔ path ∈ generationAll ∧ containsText path "_python" = true := by
  unfold generationPython
  exact List.mem_filter

theorem mem_reflectionAll {path : String} :
    path ∈ reflectionAll ↔
      path ∈ globalPromptPaths ∧ containsText path "_reflect_prompts" = true := by
  unfold reflectionAll
  exact List.mem_filter

theorem mem_mirrorFamilies {family : List String} :
    family ∈ mirrorFamilies ↔
      family = generationAll ∨ family = generationPython ∨ family = reflectionAll := by
  simp only [mirrorFamilies, List.mem_cons, List.not_mem_nil, or_false]

theorem mirrorFamilies_global :
    ∀ family ∈ mirrorFamilies, ∀ path ∈ family, path ∈ globalPromptPaths := by
  intro family mirror path member
  rcases mem_mirrorFamilies.mp mirror with same | same | same
  · rw [same] at member
    exact (mem_generationAll.mp member).1
  · rw [same] at member
    exact (mem_generationAll.mp (mem_generationPython.mp member).1).1
  · rw [same] at member
    exact (mem_reflectionAll.mp member).1

theorem manifest_not_global : projectSkillManifestPath ∉ globalPromptPaths := by
  unfold globalPromptPaths
  rw [List.mem_map]
  rintro ⟨path, _, same⟩
  have letters := congrArg String.toList same
  unfold settingsPath projectSkillManifestPath at letters
  rw [String.toList_append] at letters
  simp at letters

/-- The families of one file. -/
def singleFiles : List String :=
  ["code_suggestions/pr_code_suggestions_scenario_validator_prompts.toml",
    "pr_inline_selfcheck_prompts.toml", "pr_tier1_repair_prompts.toml"]

theorem singleFiles_unmarked :
    ∀ path ∈ singleFiles,
      containsText (settingsPath path) "pr_code_suggestions_prompts" = false ∧
        containsText (settingsPath path) "_reflect_prompts" = false := by
  decide +kernel

theorem singleFiles_not_mirrored
    {path : String}
    (single : path ∈ singleFiles) :
    settingsPath path ∈ globalPromptPaths ∧
      ∀ family ∈ mirrorFamilies, settingsPath path ∉ family := by
  obtain ⟨notGeneration, notReflection⟩ := singleFiles_unmarked path single
  have outside : settingsPath path ∉ generationAll := by
    rw [mem_generationAll, notGeneration]
    simp
  refine ⟨?_, ?_⟩
  · unfold globalPromptPaths
    apply List.mem_map_of_mem
    simp only [singleFiles, List.mem_cons, List.not_mem_nil, or_false] at single
    rcases single with rfl | rfl | rfl <;> simp [globalImprovePromptPaths]
  · intro family mirror member
    rcases mem_mirrorFamilies.mp mirror with same | same | same
    · rw [same] at member
      exact outside member
    · rw [same] at member
      exact outside (mem_generationPython.mp member).1
    · rw [same, mem_reflectionAll, notReflection] at member
      cases member.2

variable {label : String}

theorem familyToPaths_cases
    {paths : List String}
    (found : familyToPaths label = some paths) :
    paths ∈ mirrorFamilies ∨ ∀ path ∈ paths, path ∈ globalPromptPaths ∧
      ∀ family ∈ mirrorFamilies, path ∉ family := by
  have alone : ∀ path ∈ singleFiles, ∀ other ∈ [settingsPath path],
      other ∈ globalPromptPaths ∧ ∀ family ∈ mirrorFamilies, other ∉ family := by
    intro path single other same
    rw [List.mem_singleton.mp same]
    exact singleFiles_not_mirrored single
  unfold familyToPaths at found
  repeat' split at found
  · rw [← Option.some_inj.mp found]
    exact Or.inl (mem_mirrorFamilies.mpr (Or.inl rfl))
  · rw [← Option.some_inj.mp found]
    exact Or.inl (mem_mirrorFamilies.mpr (Or.inr (Or.inl rfl)))
  · rw [← Option.some_inj.mp found]
    exact Or.inl (mem_mirrorFamilies.mpr (Or.inr (Or.inr rfl)))
  · rw [← Option.some_inj.mp found]
    exact Or.inr (alone _ (by simp [singleFiles]))
  · rw [← Option.some_inj.mp found]
    exact Or.inr (alone _ (by simp [singleFiles]))
  · rw [← Option.some_inj.mp found]
    exact Or.inr (alone _ (by simp [singleFiles]))
  · cases found

theorem label_of_manifest
    (declared : projectSkillManifestPath ∈ declaredPaths label) :
    label = "project_rule" := by
  unfold declaredPaths at declared
  split at declared
  · assumption
  · cases found : familyToPaths label with
    | none =>
        rw [found] at declared
        cases declared
    | some paths =>
        rw [found, Option.getD_some] at declared
        rcases familyToPaths_cases found with mirrored | single
        · exact absurd (mirrorFamilies_global paths mirrored _ declared) manifest_not_global
        · exact absurd (single _ declared).1 manifest_not_global

/-! ## Confined proposals -/

section Confined

variable (lib : PromptLibrary) (limits : ProposalLimits) (proposal : PromptProposal)
  (candidates : List EligibleCandidate) (workspace : PromptFiles)

/-- The change has evidence, and all of it is of one project. -/
structure BackedBy (change : PromptFileChange) (project : String) : Prop where
  present : change.evidenceIds ≠ []
  owned : ∀ evidenceId ∈ change.evidenceIds, ∃ candidate,
    candidateByEvidence candidates evidenceId = some candidate ∧ candidate.scope = .project ∧
      candidate.project = some project

/-- The manifest was there, and its new text is a strict and small edit of its rules. -/
def StrictEdit (change : PromptFileChange) (project : String) : Prop :=
  ∃ base baseRules proposed, workspace.get change.path = some base ∧
    baseRulesOf lib base project = .ok baseRules ∧
    parseProjectRules lib change.content project = .ok proposed ∧
    validateProjectRuleLanguages lib candidates change base project proposed = [] ∧
    ((changedRuleIds baseRules.rules proposed.rules).length : Int) ≤ limits.maxProjectRuleEdits

/-- What a proposal that passes should be confined to. -/
structure Confined : Prop where
  labelled : ∀ change ∈ proposal.changes, change.path ∈ declaredPaths change.family
  mirrored : ∀ change ∈ proposal.changes, ∀ family ∈ mirrorFamilies, change.path ∈ family →
    ∃ whole ∈ mirrorFamilies, change.path ∈ whole ∧
      ∀ path ∈ whole, path ∈ proposal.changes.map (·.path)
  distinct : (proposal.changes.map (·.path)).Nodup
  manifest : ∀ change ∈ proposal.changes, change.path = projectSkillManifestPath →
    ∃ project, BackedBy candidates change project ∧
      StrictEdit lib limits candidates workspace change project

/-- A manifest that was empty gets no more rules than may be edited. -/
def SmallFirstEdit : Prop :=
  ∀ change ∈ proposal.changes, change.path = projectSkillManifestPath →
    workspace.get change.path = some "" → ∀ project proposed,
      parseProjectRules lib change.content project = .ok proposed →
        (proposed.rules.length : Int) ≤ limits.maxProjectRuleEdits

end Confined

section Passed

variable {lib : PromptLibrary} {limits : ProposalLimits} {proposal : PromptProposal}
  {candidates : List EligibleCandidate} {workspace : PromptFiles} {change : PromptFileChange}

theorem length_changedRuleIds_nil
    {rules : List PromptRule}
    (distinct : (rules.map (·.id)).Nodup) :
    (changedRuleIds [] rules).length = rules.length := by
  have all : changedRuleIds [] rules = rules.map (·.id) := by
    unfold changedRuleIds
    rw [List.map_nil, List.nil_append, GroupedList.eraseDups_eq_self distinct,
      List.filter_eq_self]
    intro id member
    obtain ⟨rule, stored, rfl⟩ := List.mem_map.mp member
    have found : (ruleById rules rule.id).isSome = true := by
      rw [ruleById, List.find?_isSome]
      exact ⟨rule, List.mem_reverse.mpr stored, by simp⟩
    cases known : ruleById rules rule.id with
    | none =>
        rw [known] at found
        cases found
    | some other =>
        simp [ruleById]
  rw [all, List.length_map]

theorem mirrored_of_clean
    (clean : CleanChange lib limits proposal candidates workspace change)
    (changed : change ∈ proposal.changes)
    (labelled : change.path ∈ declaredPaths change.family)
    {family : List String}
    (mirror : family ∈ mirrorFamilies)
    (member : change.path ∈ family) :
    ∃ whole ∈ mirrorFamilies, change.path ∈ whole ∧
      ∀ path ∈ whole, path ∈ proposal.changes.map (·.path) := by
  have global := mirrorFamilies_global family mirror change.path member
  unfold declaredPaths at labelled
  split at labelled
  · rw [List.mem_singleton.mp labelled] at global
    exact absurd global manifest_not_global
  · cases found : familyToPaths change.family with
    | none =>
        rw [found] at labelled
        cases labelled
    | some paths =>
        rw [found, Option.getD_some] at labelled
        rcases familyToPaths_cases found with whole | single
        · refine ⟨paths, whole, labelled, ?_⟩
          have complete := clean.mirror
          simp only [mirrorErrors, found, errorIf_eq_nil, labelled] at complete
          by_cases several : 1 < paths.length
          · simpa [several] using complete
          · -- A family of one file is changed as a whole by the change itself.
            obtain ⟨only, rfl⟩ := List.length_eq_one_iff.mp
              (by have := List.length_pos_of_mem labelled; omega : paths.length = 1)
            intro path inOnly
            rw [List.mem_singleton.mp inOnly, ← List.mem_singleton.mp labelled]
            exact List.mem_map_of_mem changed
        · exact absurd member ((single change.path labelled).2 family mirror)

theorem candidateProjects_all
    (owned : ∀ evidenceId ∈ change.evidenceIds, ∃ candidate,
      candidateByEvidence candidates evidenceId = some candidate ∧ candidate.scope = .project) :
    (candidateProjects candidates change fun _ => true) =
      candidateProjects candidates change fun candidate => candidate.scope = .project := by
  unfold candidateProjects
  congr 2
  apply List.filter_congr
  intro candidate member
  obtain ⟨evidenceId, listed, found⟩ := List.mem_filterMap.mp member
  obtain ⟨other, known, scope⟩ := owned evidenceId listed
  rw [known] at found
  cases found
  simp [scope]

theorem manifest_of_clean
    (clean : CleanChange lib limits proposal candidates workspace change)
    (label : change.family = "project_rule")
    (small : workspace.get change.path = some "" → ∀ project proposed,
      parseProjectRules lib change.content project = .ok proposed →
        (proposed.rules.length : Int) ≤ limits.maxProjectRuleEdits) :
    ∃ project, BackedBy candidates change project ∧
      StrictEdit lib limits candidates workspace change project := by
  obtain ⟨present, owned⟩ := scope_of_clean clean.evidence label
  have rules := clean.rules
  have edits := clean.edits
  unfold projectRuleErrors at rules
  rw [if_pos label] at rules
  unfold ruleEditErrors at edits
  rw [candidateProjects_all owned] at edits
  split at rules
  · rename_i project only
    split at rules
    · cases rules
    · rename_i base stored
      rw [stored, only] at edits
      simp only [label, ne_eq, not_true, if_false] at edits
      split at rules
      · rename_i proposed parsed
        refine ⟨project, ⟨present, ?_⟩, ?_⟩
        · intro evidenceId member
          obtain ⟨candidate, known, scope⟩ := owned evidenceId member
          refine ⟨candidate, known, scope, ?_⟩
          have listed : candidate.project ∈
              candidateProjects candidates change fun candidate => candidate.scope = .project := by
            refine List.mem_eraseDups.mpr (List.mem_map_of_mem (List.mem_filter.mpr ⟨?_, ?_⟩))
            · exact List.mem_filterMap.mpr ⟨evidenceId, member, known⟩
            · simpa using scope
          rw [only] at listed
          exact List.mem_singleton.mp listed
        · cases before : baseRulesOf lib base project with
          | error reason =>
              simp [validateProjectRuleLanguages, before] at rules
          | ok baseRules =>
              refine ⟨base, baseRules, proposed, stored, before, parsed, rules, ?_⟩
              by_cases empty : base = ""
              · rw [empty] at stored before
                cases before
                rw [length_changedRuleIds_nil (parseProjectRules_ok parsed).2]
                exact small stored project proposed parsed
              · rw [baseRulesOf, if_neg empty] at before
                have counted : semanticEditCount lib base change.content project =
                    .ok (changedRuleIds baseRules.rules proposed.rules).length := by
                  rw [semanticEditCount, before, parsed]
                  rfl
                rw [counted] at edits
                simpa using edits
      · split at rules <;> cases rules
  · cases rules

/-- A validated proposal is confined to its families and to strict edits of one project's rules if
and only if its labels fit, no path repeats and no empty manifest gets too many rules. -/
theorem validated_proposal_confined
    {report : ValidationReport}
    (validated : validateProposal lib limits proposal candidates workspace = .ok report)
    (passed : report.passed = true) :
    Confined lib limits proposal candidates workspace ↔
      (∀ change ∈ proposal.changes, change.path ∈ declaredPaths change.family) ∧
        (proposal.changes.map (·.path)).Nodup ∧
        SmallFirstEdit lib limits proposal workspace := by
  constructor
  · intro confined
    refine ⟨confined.labelled, confined.distinct, ?_⟩
    intro change member path empty project proposed parsed
    obtain ⟨owner, _, base, baseRules, other, stored, before, otherParsed, _, few⟩ :=
      confined.manifest change member path
    have same := parseProjectRules_project_unique parsed otherParsed
    subst same
    rw [parsed] at otherParsed
    cases otherParsed
    rw [empty] at stored
    cases stored
    cases before
    rwa [length_changedRuleIds_nil (parseProjectRules_ok parsed).2] at few
  · rintro ⟨labelled, distinct, small⟩
    refine ⟨labelled, ?_, distinct, ?_⟩
    · intro change member family mirror inFamily
      exact mirrored_of_clean (cleanChange_of_passed validated passed member) member
        (labelled change member) mirror inFamily
    · intro change member path
      have declared := labelled change member
      rw [path] at declared
      exact manifest_of_clean (cleanChange_of_passed validated passed member)
        (label_of_manifest declared) (small change member path)

end Passed

namespace SkillManifest

/-- A manifest without rules. -/
def base : String :=
  "schema_version = 1\nproject = \"eabot/cook\"\n"

/-- The manifest with one rule for Python. -/
def oneRule : String :=
  base ++ "[[rules]]\nid = \"python-rule\"\ntargets = [\"improve\"]\n" ++
    "languages = [\"python\"]\ninstruction = \"Require direct Python evidence.\"\n"

/-- A text that is no manifest. -/
def noManifest : String := "x = 1\n"

/-- What the libraries make of the three texts. -/
def lib : PromptLibrary where
  sha256 := fun _ => "53399c3f1a743dbcb8f116189e23c20861b35d27f840aedf99e9aa6d77c5fa47"
  tomlLoads := fun content =>
    if content = noManifest then .ok [("x", .int 1)]
    else if content = base then .ok [("schema_version", .int 1), ("project", .str "eabot/cook")]
    else .ok
      [("schema_version", .int 1), ("project", .str "eabot/cook"),
        ("rules", .array [.table
          [("id", .str "python-rule"), ("targets", .array [.str "improve"]),
            ("languages", .array [.str "python"]),
            ("instruction", .str "Require direct Python evidence.")]])]
  casefold := fun text => String.ofList (text.toList.map Char.toLower)
  lower := fun text => String.ofList (text.toList.map Char.toLower)
  jinjaParse := fun _ => .ok ()
  findUndeclaredVariables := fun _ => some []
  searchSecrets := fun _ => false
  unifiedDiff := fun _ _ => ["--- ", "+++ ", "+x = 1"]

def workspace : PromptFiles where
  files := [(projectSkillManifestPath, some base)]

def candidate (scope : CandidateScope) : EligibleCandidate where
  scope := scope
  project := if scope = .project then some "eabot/cook" else none
  evidence := [{ suggestionId := "s1", filePath := "src/a.py" }]

def proposal (family content : String) : PromptProposal where
  evidenceIds := ["s1"]
  changes :=
    [{ path := projectSkillManifestPath, family := family
       expectedBaseSha256 := "53399c3f1a743dbcb8f116189e23c20861b35d27f840aedf99e9aa6d77c5fa47"
       content := content, evidenceIds := ["s1"] }]

theorem one_rule_confined :
    Confined lib {} (proposal "project_rule" oneRule) [candidate .project] workspace := by
  have validated : validateProposal lib {} (proposal "project_rule" oneRule)
      [candidate .project] workspace = .ok { passed := true, errors := [] } := by
    decide +kernel
  refine (validated_proposal_confined validated rfl).mpr ⟨?_, ?_, ?_⟩
  · decide +kernel
  · decide +kernel
  · intro change member _ empty
    rw [List.mem_singleton.mp member] at empty
    have different : workspace.get projectSkillManifestPath ≠ some "" := by
      decide +kernel
    exact absurd empty different

/-- Under another label, evidence that is of no project replaces the manifest by any text. -/
theorem mislabelled_manifest_passes :
    validateProposal lib {} (proposal "tier1_repair" noManifest) [candidate .global] workspace =
        .ok { passed := true, errors := [] } ∧
      ¬Confined lib {} (proposal "tier1_repair" noManifest) [candidate .global] workspace := by
  refine ⟨by decide +kernel, ?_⟩
  intro confined
  obtain ⟨project, backed, _⟩ := confined.manifest _ List.mem_cons_self rfl
  obtain ⟨owner, known, scope, _⟩ := backed.owned "s1" List.mem_cons_self
  have global : candidateByEvidence [candidate .global] "s1" = some (candidate .global) := by
    decide +kernel
  rw [global] at known
  cases known
  cases scope

end SkillManifest

end MrAgent
