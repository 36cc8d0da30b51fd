import MrAgent.ConflictComponents
import MrAgent.PatchText

namespace MrAgent

/-!
# Deterministic repair of suggestions

`run_deterministic_fix` repairs what it can without a model: it moves a
suggestion to the lines its code is found at, and splits a suggestion that needs
a new dependency into the dependency line and the change. What it cannot repair
becomes a task, and so do repaired suggestions that conflict.
-/

/-- What the repair layer takes from Python. -/
structure FixEnv extends WordEnv where
  /-- `difflib.SequenceMatcher(...).ratio()` of a window and the text that is looked for. -/
  ratio : List Char → List Char → Rat
  /-- The error that a value of an unexpected type raises in `_fix_one`. -/
  failure : FixSuggestion → Option String

/-! ## Moved code -/

/-- The lines of a text, stripped, without the empty ones. -/
def strippedLines (lines : List (List Char)) : List (List Char) :=
  (lines.map strip).filter (· ≠ [])

/-- `_existing_code_matches_at_claimed_lines` -/
def existingCodeMatches (suggestion : FixSuggestion) (headFile : String) : Bool :=
  let existingLines := strippedLines (splitLines suggestion.existingCode)
  if existingLines = [] then true
  else
    match suggestion.linesStart, suggestion.linesEnd with
    | some start, some stop =>
      let headLines := splitLines headFile
      if start ≤ 0 ∨ stop < start ∨ start > headLines.length then false
      else
        let claimed := strippedLines ((headLines.take stop.toNat).drop (start - 1).toNat)
        let agreeing := (existingLines.zip claimed).countP fun pair => pair.1 = pair.2
        10 * agreeing ≥ 7 * existingLines.length
    | _, _ => false

namespace FixEnv

variable (env : FixEnv)

/-- The loop over the windows: the best ratio and where it was found. -/
def bestWindow (target : List Char) (headLines : List (List Char)) (count : Nat) :
    Rat × Option Nat :=
  (List.range (headLines.length - count + 1)).foldl
    (fun best start =>
      let ratio := env.ratio (['\n'].intercalate ((headLines.drop start).take count)) target
      if best.1 < ratio then (ratio, some start) else best)
    (0, none)

/-- `fuzzy_match_existing_code`. -/
def fuzzyMatchExistingCode (existingCode headFile : String) (threshold : Rat) :
    Option (List Char × Nat × Nat) :=
  let targetLines := splitLines existingCode
  let headLines := splitLines headFile
  let count := targetLines.length
  if existingCode = "" ∨ headFile = "" ∨ count = 0 ∨ headLines.length < count then none
  else
    let best := env.bestWindow (['\n'].intercalate targetLines) headLines count
    match best.2 with
    | none => none
    | some start =>
      if best.1 < threshold then none
      else some
        (['\n'].intercalate ((headLines.drop start).take count), start + 1, start + count)

/-- `repair_existing_mismatch`. -/
def repairExistingMismatch (suggestion : FixSuggestion) (headFile : String) (threshold : Rat) :
    Option FixSuggestion :=
  (env.fuzzyMatchExistingCode suggestion.existingCode headFile threshold).map fun found =>
    { suggestion with
      existingCode := String.ofList found.1
      linesStart := some found.2.1
      linesEnd := some found.2.2 }

end FixEnv

/-! ## New dependencies -/

/-- `^\s*#\s*include\s*[<"][^>"]+[>"]\s*$` -/
def isIncludeLine (line : List Char) : Bool :=
  match line.dropWhile isSpace with
  | '#' :: directive =>
    match afterStart "include".toList (directive.dropWhile isSpace) with
    | some target =>
      match target.dropWhile isSpace with
      | opening :: rest =>
        let path := rest.takeWhile fun c => c ≠ '>' ∧ c ≠ '"'
        let closing := rest.drop path.length
        (opening = '<' || opening = '"') && path ≠ [] && closing ≠ [] &&
          (closing.drop 1).all isSpace
      | [] => false
    | none => false
  | _ => false

namespace WordEnv

variable (env : WordEnv)

/-- `\s+[\w.]+` and the rest of the line. -/
def afterModule (line : List Char) : Option (List Char) :=
  let name := line.dropWhile isSpace
  let rest := name.dropWhile fun c => env.isWord c || c = '.'
  if line.head?.any isSpace && rest.length < name.length then some rest else none

/-- `^\s*(?:import\s+[\w.]+|from\s+[\w.]+\s+import\s+.+)\s*$` -/
def isImportLine (line : List Char) : Bool :=
  let statement := line.dropWhile isSpace
  let plain := ((afterStart "import".toList statement).bind env.afterModule).any
    (·.all isSpace)
  let relative := (((afterStart "from".toList statement).bind env.afterModule).filter
    (·.head?.any isSpace)).bind fun rest =>
      afterStart "import".toList (rest.dropWhile isSpace)
  plain || relative.any fun names => names.head?.any isSpace && names.length ≥ 2

/-- The pattern of the dependency lines of a language. -/
def isDependencyLine (isPython : Bool) (line : List Char) : Bool :=
  if isPython then env.isImportLine line else isIncludeLine line

/-- `_find_dependency_anchor`. -/
def findDependencyAnchor (headFile : String) (isPython : Bool) : List Char × Nat :=
  let lines := splitLines headFile
  match ((List.range lines.length).filter fun index =>
      (lines[index]?).any (env.isDependencyLine isPython)).getLast? with
  | some index => ((lines[index]?).getD [], index + 1)
  | none => (lines.headD [], 1)

local instance lawfulLines : LawfulBEq (List Char) := inferInstance

/-- `split_new_dependency`: the dependency line and the change. -/
def splitNewDependency (suggestion : FixSuggestion) (headFile : String) :
    Option (FixSuggestion × FixSuggestion) :=
  let isPython := decide (".py".toList <:+ suggestion.relevantFile.toList)
  let improved := splitLines suggestion.improvedCode
  let depLines := improved.filter fun line =>
    env.isDependencyLine isPython line &&
      !(strip line ≠ [] && (strip line <:+: headFile.toList ||
        strip line <:+: suggestion.existingCode.toList))
  if depLines = [] then none
  else
    let anchor := env.findDependencyAnchor headFile isPython
    some
      ({ suggestion with
         existingCode := String.ofList anchor.1
         improvedCode := String.ofList
           (if anchor.1 ≠ [] then anchor.1 ++ '\n' :: ['\n'].intercalate depLines
            else ['\n'].intercalate depLines)
         linesStart := some anchor.2
         linesEnd := some anchor.2
         oneSentenceSummary := "补充新增依赖"
         suggestionContent := "补充建议所需的新增依赖（头文件/模块导入）。"
         structuralIssue := "none" },
       { suggestion with
         improvedCode := String.ofList (['\n'].intercalate (improved.filter (· ∉ depLines)))
         structuralIssue := "none" })

end WordEnv

/-! ## Tasks -/

/-- A `RepairTask`. -/
structure FixTask where
  relevantFile : String
  structuralIssue : String
  members : List FixSuggestion
  fixNote : String
  companionHeadFile : Option String := none
  needsTier2 : Bool := false
deriving DecidableEq

/-- `kind`. -/
def FixTask.kind (task : FixTask) : String :=
  if task.members.length > 1 then "merged" else "single"

namespace FixEnv

variable (env : FixEnv) (headMap : HeadMap)

/-- A task for one suggestion. -/
def singleTask (suggestion : FixSuggestion) (issue note : String) : FixTask where
  relevantFile := String.ofList suggestion.file
  structuralIssue := issue
  members := [suggestion]
  fixNote := note

/-- `_fix_one` on a suggestion whose code is where it claims. -/
def fixInPlace (suggestion : FixSuggestion) : List FixSuggestion × Option FixTask :=
  let headFile := headFor headMap suggestion.file
  if suggestion.structuralIssue = "new_dependency" then
    match env.splitNewDependency suggestion headFile with
    | some halves =>
      ([{ halves.1 with resolvedByStage := "deterministic_fix" },
        { halves.2 with resolvedByStage := "deterministic_fix" }], none)
    | none =>
      ([], some (singleTask suggestion "new_dependency"
        "new_dependency flagged but no #include/import line found to split"))
  else if suggestion.structuralIssue = "cross_file" then
    let companion := strip suggestion.companionFile.toList
    match headMap.find? (·.1 = companion) with
    | some entry =>
      if companion = [] then
        ([], some { singleTask suggestion "cross_file"
          "companion file not in diff; only Tier-2 (full-repo clone) can repair it" with
            needsTier2 := true })
      else
        ([], some { singleTask suggestion "cross_file"
          "companion file is in diff; needs a two-file repair from Tier-1" with
            companionHeadFile := some entry.2 })
    | none =>
      ([], some { singleTask suggestion "cross_file"
        "companion file not in diff; only Tier-2 (full-repo clone) can repair it" with
          needsTier2 := true })
  else if suggestion.structuralIssue = "incomplete_patch" then
    ([], some (singleTask suggestion "incomplete_patch"
      "incomplete/ellipsis patch or unbalanced braces; no deterministic fix"))
  else ([{ suggestion with resolvedByStage := "reflect_pass" }], none)

/-- `_fix_one`, with the handler of its errors in `run_deterministic_fix`. -/
def fixOne (threshold : Rat) (suggestion : FixSuggestion) : List FixSuggestion × Option FixTask :=
  let headFile := headFor headMap suggestion.file
  match env.failure suggestion with
  | some error =>
    ([], some
      { relevantFile := suggestion.relevantFile
        structuralIssue := "error"
        members := [suggestion]
        fixNote := "deterministic_fix error: " ++ error })
  | none =>
    if headFile ≠ "" && !existingCodeMatches suggestion headFile then
      match env.repairExistingMismatch suggestion headFile threshold with
      | some fixed => ([{ fixed with resolvedByStage := "deterministic_fix" }], none)
      | none =>
        ([], some (singleTask suggestion "existing_mismatch"
          "existing_code not found in head_file above the fuzzy-match threshold"))
    else env.fixInPlace headMap suggestion

end FixEnv

/-! ## The run -/

/-- A piece of a suggestion knows where it comes from. -/
def FixSuggestion.withOrigin (suggestion : FixSuggestion) (origin : Nat) : FixSuggestion :=
  { suggestion with originId := some origin }

/-- A task whose members know where they come from. -/
def FixTask.withOrigin (task : FixTask) (origin : Nat) : FixTask :=
  { task with members := task.members.map (·.withOrigin origin) }

/-- `_strip_internal_keys`. -/
def FixSuggestion.stripped (suggestion : FixSuggestion) : FixSuggestion :=
  { suggestion with originId := none }

/-- The resolved suggestions and the tasks. -/
structure FixResult where
  resolved : List FixSuggestion
  tasks : List FixTask
deriving DecidableEq

namespace FixEnv

variable (env : FixEnv) (headMap : HeadMap) (threshold : Rat) (adjacency : Int)

/-- The loop over the suggestions. -/
def fixAll (suggestions : List FixSuggestion) : FixResult where
  resolved := suggestions.zipIdx.flatMap fun entry =>
    (env.fixOne headMap threshold entry.1).1.map (·.withOrigin entry.2)
  tasks := suggestions.zipIdx.filterMap fun entry =>
    (env.fixOne headMap threshold entry.1).2.map (·.withOrigin entry.2)

/-- The suggestions at some positions. -/
def pick (items : List FixSuggestion) (positions : List Nat) : List FixSuggestion :=
  positions.filterMap (items[·]?)

/-- A task for a group of conflicting suggestions. -/
def conflictTask (members : List FixSuggestion) : FixTask where
  relevantFile := (members.head?.map (·.relevantFile)).getD ""
  structuralIssue := "conflict"
  members := members
  fixNote := toString members.length ++ " suggestions conflict when applied together"

/-- The conflicting suggestions become tasks. -/
def takeConflicts (result : FixResult) : FixResult :=
  let groups := env.detectConflictGroups headMap adjacency result.resolved
  { resolved := pick result.resolved
      ((List.range result.resolved.length).filter (· ∉ groups.flatten))
    tasks := result.tasks ++ groups.map fun group => conflictTask (pick result.resolved group) }

/-- The result before the internal keys are taken out. -/
def fixWithOrigins (suggestions : List FixSuggestion) : FixResult :=
  env.takeConflicts headMap adjacency (env.fixAll headMap threshold suggestions)

/-- `run_deterministic_fix`. -/
def runDeterministicFix (suggestions : List FixSuggestion) : FixResult :=
  let result := env.fixWithOrigins headMap threshold adjacency suggestions
  { resolved := result.resolved.map (·.stripped)
    tasks := result.tasks.map fun task => { task with members := task.members.map (·.stripped) } }

end FixEnv

end MrAgent
