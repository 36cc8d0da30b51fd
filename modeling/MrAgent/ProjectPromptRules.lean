import MrAgent.FallibleProgram
import MrAgent.RepairPlanner

namespace MrAgent

open FallibleProgram

/-!
# The rules of a project

`project_prompt_rules.py`: the strict parser of the manifest in which a project
keeps its review rules. TOML, the digest and the case mappings of strings come
from libraries; the parser looks at what TOML has made of the text.
-/

/-- A value of a TOML document; a float is a number unless it is infinite or not a number. -/
inductive TomlValue where
  | str (text : String)
  | int (value : Int)
  | bool (value : Bool)
  | float (value : Option Rat)
  | moment
  | array (items : List TomlValue)
  | table (entries : List (String × TomlValue))

/-- A TOML table. -/
abbrev TomlTable := List (String × TomlValue)

/-- The libraries behind parser and validator. -/
structure PromptLibrary where
  sha256 : String → String
  tomlLoads : String → Except String TomlTable
  casefold : String → String
  lower : String → String
  jinjaParse : String → Except String Unit
  findUndeclaredVariables : String → Option (List String)
  searchSecrets : String → Bool
  unifiedDiff : String → String → List String

/-- `PROJECT_SKILL_MANIFEST_PATH`. -/
def projectSkillManifestPath : String := ".pr_agent/skills/review/skill.toml"

def publicRuleTargets : List String := ["review", "improve"]

def ruleLanguages : List String := ["python", "cpp"]

def maxProjectRules : Nat := 50

def maxRuleInstructionChars : Nat := 2000

def maxProjectRuleInstructionChars : Nat := 12000

def maxProjectReferences : Nat := 10

def maxProjectManifestChars : Nat := 50000

def maxRuleScopeEntries : Nat := 100

def maxRuleScopeValueChars : Nat := 500

structure PromptRule where
  id : String
  targets : List String
  instruction : String
  languages : List String := []
  paths : List String := []
  excludePaths : List String := []
  references : List String := []
deriving DecidableEq

structure ProjectRuleSet where
  project : String
  rules : List PromptRule := []
  name : String := ""
  description : String := ""
  manifestHash : String := ""
deriving DecidableEq

/-! ## Paths and identifiers -/

/-- The characters of `_SAFE_SEGMENT`. -/
def isSegmentChar (c : Char) : Bool :=
  c.isAlphanum || c = '_' || c = '.' || c = '-'

/-- `text.split("/")`. -/
def slashParts (text : String) : List String :=
  (text.toList.splitOn '/').map String.ofList

/-- `safe_project_parts`. -/
def safeProjectParts (projectPath : String) : Except String (List String) :=
  let parts := slashParts projectPath
  if parts.any fun part => part = "" || part = "." || part = ".." ||
      !part.toList.all isSegmentChar then
    .error "unsafe GitLab project path"
  else .ok parts

/-- A full match of `_RULE_ID`. -/
def isRuleId (text : String) : Bool :=
  match text.toList with
  | [] => false
  | first :: rest => first.isAlphanum && rest.length ≤ 127 && rest.all isSegmentChar

/-- `PurePosixPath(path).parts`, without the root. -/
def posixParts (path : String) : List String :=
  (slashParts path).filter fun part => part ≠ "" && part ≠ "."

/-- `PurePosixPath(path).suffix`. -/
def posixSuffix (path : String) : String :=
  match (posixParts path).getLast? with
  | none => ""
  | some name =>
    let extension := (name.toList.reverse.takeWhile (· ≠ '.')).reverse
    let stem := name.toList.length - extension.length - 1
    if extension ≠ [] ∧ 0 < stem ∧ extension.length < name.toList.length then
      String.ofList ('.' :: extension)
    else ""

/-- `path.replace("\\", "/")`. -/
def forwardSlashes (path : String) : String :=
  String.ofList (path.toList.map fun c => if c = '\\' then '/' else c)

/-- `_validate_glob`. -/
def validateGlob (pattern : String) : Except String Unit :=
  let normalized := forwardSlashes pattern
  if "/".toList <+: normalized.toList || Char.ofNat 0 ∈ normalized.toList ||
      (posixParts normalized).any (· = "..") then
    .error "invalid project prompt rule path"
  else .ok ()

/-- `_validate_reference_path`. -/
def validateReferencePath (lib : PromptLibrary) (path : String) : Except String Unit :=
  let normalized := forwardSlashes path
  if "/".toList <+: normalized.toList || !("references/".toList <+: normalized.toList) ||
      lib.lower (posixSuffix normalized) ≠ ".md" || (posixParts normalized).any (· = "..") then
    .error "invalid project prompt rule reference"
  else .ok ()

/-! ## The strict parser -/

/-- `_strict_string`. -/
def strictString (raw : Option TomlValue) (fieldName : String) (required : Bool) :
    Except String String :=
  match raw with
  | some (.str text) =>
    let stripped := String.ofList (strip text.toList)
    if required && stripped = "" then .error s!"invalid {fieldName}" else .ok stripped
  | none => if required then .error s!"invalid {fieldName}" else .ok ""
  | some _ => .error s!"invalid {fieldName}"

/-- `_strict_string_list`. -/
def strictStringList (raw : Option TomlValue) (fieldName : String) (required : Bool) :
    Except String (List String) :=
  match raw with
  | some (.array items) => do
    raiseIf (required && items.isEmpty) s!"invalid {fieldName}"
    let values ← items.mapM fun item => strictString (some item) fieldName true
    raiseIf (values.length ≠ values.eraseDups.length || maxRuleScopeEntries < values.length ||
      values.any (maxRuleScopeValueChars < ·.length)) s!"duplicate {fieldName}"
    return values
  | none => if required then .error s!"invalid {fieldName}" else .ok []
  | some _ => .error s!"invalid {fieldName}"

/-- `data.get("schema_version") == 1`, as Python compares numbers. -/
def equalsOne : Option TomlValue → Bool
  | some (.int value) => value = 1
  | some (.bool value) => value
  | some (.float value) => value = some 1
  | _ => false

/-- `data.get("project") == expected_project`. -/
def equalsText (expected : String) : Option TomlValue → Bool
  | some (.str text) => text = expected
  | _ => false

/-- What the loop over the rules has collected. -/
structure RuleScan where
  rules : List PromptRule := []
  seenInstructions : List String := []
  allReferences : List String := []

/-- One rule of the loop. -/
def scanRule (lib : PromptLibrary) (scan : RuleScan) (raw : TomlValue) : Except String RuleScan :=
  match raw with
  | .table entries => do
    let fields := ["id", "targets", "instruction", "languages", "paths", "exclude_paths",
      "references"]
    raiseIf (entries.any fun entry => entry.1 ∉ fields) "unknown project prompt rule field"
    let targets ← strictStringList (entries.lookup "targets") "targets" true
    let languages ← strictStringList (entries.lookup "languages") "languages" false
    let paths ← strictStringList (entries.lookup "paths") "paths" false
    let excludePaths ← strictStringList (entries.lookup "exclude_paths") "exclude_paths" false
    let references ← strictStringList (entries.lookup "references") "references" false
    let instruction ← strictString (entries.lookup "instruction") "instruction" true
    let ruleId ← strictString (entries.lookup "id") "rule id" true
    let normalizedInstruction :=
      String.ofList ([' '].intercalate (words (lib.casefold instruction).toList))
    raiseIf (!isRuleId ruleId || ruleId ∈ scan.rules.map (·.id) ||
        normalizedInstruction ∈ scan.seenInstructions ||
        maxRuleInstructionChars < instruction.length ||
        targets.any (· ∉ publicRuleTargets) || languages.any (· ∉ ruleLanguages))
      "invalid project prompt rule"
    let _ ← (paths ++ excludePaths).mapM validateGlob
    let _ ← references.mapM (validateReferencePath lib)
    return {
      rules := scan.rules ++ [{
        id := ruleId
        targets := targets
        instruction := instruction
        languages := languages
        paths := paths
        excludePaths := excludePaths
        references := references }]
      seenInstructions := scan.seenInstructions ++ [normalizedInstruction]
      allReferences := (scan.allReferences ++ references).eraseDups }
  | _ => .error "invalid project prompt rule"

/-- `data.get("rules", [])`. -/
def rawRulesOf : Option TomlValue → Except String (List TomlValue)
  | none => .ok []
  | some (.array items) => .ok items
  | some _ => .error "invalid project prompt rules"

/-- `parse_project_rules`. -/
def parseProjectRules (lib : PromptLibrary) (content expectedProject : String) :
    Except String ProjectRuleSet := do
  raiseIf (maxProjectManifestChars < content.length) "project prompt rules exceed size limits"
  let data ← lib.tomlLoads content
  raiseIf (!equalsOne (data.lookup "schema_version") ||
    !equalsText expectedProject (data.lookup "project")) "project rule schema/project mismatch"
  raiseIf (data.any fun entry =>
      entry.1 ∉ ["schema_version", "name", "project", "description", "rules"])
    "unknown project rule field"
  let name ← strictString (data.lookup "name") "project skill name" false
  let description ← strictString (data.lookup "description") "project skill description" false
  raiseIf (200 < name.length || 2000 < description.length)
    "project prompt rules exceed size limits"
  let rawRules ← rawRulesOf (data.lookup "rules")
  let scan ← rawRules.foldlM (scanRule lib) {}
  raiseIf (maxProjectRules < scan.rules.length ||
      maxProjectRuleInstructionChars < (scan.rules.map (·.instruction.length)).sum ||
      maxProjectReferences < scan.allReferences.length)
    "project prompt rules exceed size limits"
  return {
    project := expectedProject
    rules := scan.rules
    name := name
    description := description
    manifestHash := lib.sha256 content }

/-! ## What the parser accepts -/

section Accepted

variable {lib : PromptLibrary} {content project : String} {rules : ProjectRuleSet}

theorem nodup_ids_scanRule
    {scan next : RuleScan}
    {raw : TomlValue}
    (distinct : (scan.rules.map (·.id)).Nodup)
    (scanned : scanRule lib scan raw = .ok next) :
    (next.rules.map (·.id)).Nodup := by
  unfold scanRule at scanned
  split at scanned
  · simp only [bind_eq_ok, raiseIf_eq_ok] at scanned
    obtain ⟨_, _, targets, _, languages, _, paths, _, excludePaths, _, references, _, scanned⟩ :=
      scanned
    obtain ⟨instruction, _, ruleId, _, _, checked, _, _, _, _, made⟩ := scanned
    simp only [Bool.or_eq_false_iff, decide_eq_false_iff_not] at checked
    cases made
    rw [List.map_append, List.nodup_append]
    refine ⟨distinct, List.nodup_singleton _, ?_⟩
    intro earlier member last isLast same
    rw [List.map_singleton, List.mem_singleton] at isLast
    rw [same, isLast] at member
    exact checked.1.1.1.1.2 member
  · cases scanned

theorem parseProjectRules_ok
    (accepted : parseProjectRules lib content project = .ok rules) :
    (∃ data, lib.tomlLoads content = .ok data ∧ equalsText project (data.lookup "project") = true) ∧
      (rules.rules.map (·.id)).Nodup := by
  unfold parseProjectRules at accepted
  simp only [bind_eq_ok, raiseIf_eq_ok] at accepted
  obtain ⟨_, _, data, loaded, _, header, _, _, name, _, accepted⟩ := accepted
  obtain ⟨description, _, _, _, rawRules, _, scan, scanned, _, _, made⟩ := accepted
  cases made
  refine ⟨⟨data, loaded, ?_⟩, ?_⟩
  · simp only [Bool.or_eq_false_iff] at header
    simpa using header.2
  · apply foldlM_invariant (fun scan : RuleScan => (scan.rules.map (·.id)).Nodup) _ scanned
      List.nodup_nil
    intro state item next distinct stepped
    exact nodup_ids_scanRule distinct stepped

theorem parseProjectRules_project_unique
    {other : String}
    {otherRules : ProjectRuleSet}
    (accepted : parseProjectRules lib content project = .ok rules)
    (otherAccepted : parseProjectRules lib content other = .ok otherRules) :
    project = other := by
  obtain ⟨⟨data, loaded, named⟩, _⟩ := parseProjectRules_ok accepted
  obtain ⟨⟨otherData, otherLoaded, otherNamed⟩, _⟩ := parseProjectRules_ok otherAccepted
  rw [loaded] at otherLoaded
  cases otherLoaded
  unfold equalsText at named otherNamed
  split at named
  · rename_i text found
    rw [found] at otherNamed
    simp only [decide_eq_true_eq] at named otherNamed
    exact named.symm.trans otherNamed
  · cases named

end Accepted

end MrAgent
