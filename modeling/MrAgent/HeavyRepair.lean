import MrAgent.FallibleProgram
import MrAgent.PatchText

namespace MrAgent.HeavyRepair

open FallibleProgram

/-!
# Tier-2 repair

A repair session works on a clone of the branch. It leaves the edited files and
a manifest that says what became of each task. `heavy_repair.py` reads the diff
of the clone and the manifest, and turns the hunks into suggestions.
-/

/-- A value that `json.load` returns; a float is `none` when it is no number or infinite. -/
inductive JsonValue where
  | null
  | bool (value : Bool)
  | int (value : Int)
  | float (value : Option Rat)
  | str (text : String)
  | arr (items : List JsonValue)
  | obj (entries : List (String × JsonValue))

namespace JsonValue

/-- `bool(value)`. -/
def truthy : JsonValue → Bool
  | .null => false
  | .bool value => value
  | .int value => value ≠ 0
  | .float value => value ≠ some 0
  | .str text => text ≠ ""
  | .arr items => !items.isEmpty
  | .obj entries => !entries.isEmpty

/-- What a loop over the value runs through. -/
def iterated : JsonValue → Option (List JsonValue)
  | .str text => some (text.toList.map fun c => .str (String.ofList [c]))
  | .arr items => some items
  | .obj entries => some (entries.map fun entry => .str entry.1)
  | _ => none

/-- Whether the value can be a key. -/
def hashable : JsonValue → Bool
  | .arr _ => false
  | .obj _ => false
  | _ => true

end JsonValue

/-- A suggestion of a task, as far as it is read. -/
abbrev Member := List (String × JsonValue)

/-- A task, as far as it is read. -/
structure RepairTask where
  relevantFile : String
  members : List Member

structure RepairHunk where
  oldStart : Nat
  oldEnd : Nat
  existingCode : String
  improvedCode : String
deriving DecidableEq

/-- What the module takes from Python. -/
structure HeavyEnv where
  digits : DigitEnv
  lower : String → String
  /-- `str` of a value that is no text. -/
  repr : JsonValue → String

/-! ## The diff of the clone -/

/-- `current_hunk`. -/
structure OpenHunk where
  oldStart : Nat
  oldCount : Nat
  oldLines : List (List Char) := []
  newLines : List (List Char) := []

/-- `"\n".join(lines)`. -/
def joinLines (lines : List (List Char)) : String :=
  String.ofList (['\n'].intercalate lines)

/-- The hunk as it is stored. -/
def OpenHunk.close (hunk : OpenHunk) : RepairHunk where
  oldStart := hunk.oldStart
  oldEnd := if 0 < hunk.oldCount then hunk.oldStart + max hunk.oldCount 1 - 1 else hunk.oldStart
  existingCode := joinLines hunk.oldLines
  improvedCode := joinLines hunk.newLines

/-- `files.setdefault(name, []).append(hunk)`. -/
def addHunk (files : List (String × List RepairHunk)) (name : String) (hunk : RepairHunk) :
    List (String × List RepairHunk) :=
  if name ∈ files.map (·.1) then
    files.map fun file => if file.1 = name then (file.1, file.2 ++ [hunk]) else file
  else files ++ [(name, [hunk])]

/-- `file_hunks.get(name)`; no entry stands for no hunks. -/
def hunksOf (files : List (String × List RepairHunk)) (name : String) : List RepairHunk :=
  (files.lookup name).getD []

/-- What the loop over the lines of a diff carries. -/
structure DiffReading where
  files : List (String × List RepairHunk) := []
  currentFile : Option String := none
  currentHunk : Option OpenHunk := none

namespace DiffReading

/-- `flush_hunk`. -/
def flushHunk (reading : DiffReading) : DiffReading :=
  match reading.currentHunk, reading.currentFile with
  | some hunk, some name =>
    { reading with files := addHunk reading.files name hunk.close, currentHunk := none }
  | _, _ => { reading with currentHunk := none }

/-- A line behind the header of a hunk. -/
def readBody (reading : DiffReading) (line : List Char) : DiffReading :=
  match reading.currentHunk with
  | none => reading
  | some hunk =>
    match line with
    | '-' :: text =>
      { reading with currentHunk := some { hunk with oldLines := hunk.oldLines ++ [text] } }
    | '+' :: text =>
      { reading with currentHunk := some { hunk with newLines := hunk.newLines ++ [text] } }
    | ' ' :: text =>
      { reading with
        currentHunk := some {
          hunk with oldLines := hunk.oldLines ++ [text], newLines := hunk.newLines ++ [text] } }
    | _ => reading

end DiffReading

/-- `(.+?) b/(.+)`: the second name. -/
def secondName : List Char → Option (List Char)
  | [] => none
  | _ :: rest =>
    match afterStart " b/".toList rest with
    | some (c :: name) => some (c :: name)
    | _ => secondName rest

/-- `_DIFF_GIT_RE.match`: the name behind `b/`. -/
def matchDiffGit (line : List Char) : Option (List Char) := do
  secondName (← afterStart "diff --git a/".toList line)

namespace HeavyEnv

variable (env : HeavyEnv)

/-- `int` of some digits; Python refuses more than 4300 of them. -/
def readInt (digits : List Char) : Except String Nat :=
  if 4300 < digits.length then .error "Exceeds the limit (4300 digits) for integer string conversion"
  else .ok (env.digits.number digits)

/-- `int` of the digits of an optional group, with one as its default. -/
def readSize (digits : Option (List Char)) : Except String Nat :=
  match digits with
  | none => .ok 1
  | some digits => env.readInt digits

/-- A line of the diff. -/
def readLine (reading : DiffReading) (line : List Char) : Except String DiffReading :=
  match matchDiffGit line with
  | some name => .ok { reading.flushHunk with currentFile := some (String.ofList name) }
  | none =>
    match env.digits.matchHeader line with
    | none => .ok (reading.readBody line)
    | some found => do
      let oldStart ← env.readInt found.start1
      let oldCount ← env.readSize found.size1
      return { reading.flushHunk with
        currentHunk := some { oldStart := oldStart, oldCount := oldCount } }

/-- `parse_unified_diff`. -/
def parseUnifiedDiff (diffText : String) : Except String (List (String × List RepairHunk)) := do
  let reading ← (splitLines diffText).foldlM env.readLine {}
  return reading.flushHunk.files

/-- The loop of `line_range_in_diff_hunks`. -/
def rangeInHunks (lineStart lineEnd : Nat) : List (List Char) → Except String Bool
  | [] => .ok false
  | line :: rest =>
    match env.digits.matchHeader line with
    | none => rangeInHunks lineStart lineEnd rest
    | some found => do
      let newStart ← env.readInt found.start2
      let newCount ← env.readSize found.size2
      let newEnd := if 0 < newCount then newStart + max newCount 1 - 1 else newStart
      if lineStart ≤ newEnd && newStart ≤ lineEnd then .ok true
      else rangeInHunks lineStart lineEnd rest

/-- `line_range_in_diff_hunks`. -/
def lineRangeInDiffHunks (patch : String) (lineStart lineEnd : Nat) : Except String Bool :=
  env.rangeInHunks lineStart lineEnd (splitLines patch)

end HeavyEnv

/-! ## The results -/

/-- A suggestion; only one that is no one-click suggestion has a note. -/
structure RepairItem where
  relevantFile : String
  hunk : RepairHunk
  note : Option String := none
  oneSentenceSummary : JsonValue
  suggestionContent : JsonValue
  label : JsonValue
  score : JsonValue
  severity : JsonValue
  resolvedByStage : String
  sourceTaskId : String
  tier2DurationMs : Option Nat := none

structure Classified where
  oneClick : List RepairItem := []
  copyPatch : List RepairItem := []
  failed : List (String × String) := []

/-- The results of one part of the work behind those of another. -/
def Classified.append (first second : Classified) : Classified where
  oneClick := first.oneClick ++ second.oneClick
  copyPatch := first.copyPatch ++ second.copyPatch
  failed := first.failed ++ second.failed

/-- The results of some parts of the work, one after another. -/
def collect {α : Type} (classify : α → Except String Classified) :
    List α → Except String Classified
  | [] => .ok {}
  | item :: rest => do
    let here ← classify item
    let others ← collect classify rest
    return here.append others

/-- `member.get(key, default)`. -/
def Member.get (member : Member) (key : String) (default : JsonValue) : JsonValue :=
  (member.lookup key).getD default

/-- `value or other`. -/
def JsonValue.orElse (value other : JsonValue) : JsonValue :=
  if value.truthy then value else other

/-- `(task.get("members") or [{}])[0] if task else {}`. -/
def primaryMember (task : Option RepairTask) : Member :=
  (task.bind (·.members.head?)).getD []

/-- The suggestion that a hunk becomes. -/
def repairItem (task : Option RepairTask) (taskId note filePath : String) (hunk : RepairHunk)
    (inDiff : Bool) : RepairItem :=
  let member := primaryMember task
  { relevantFile := filePath
    hunk := hunk
    note := if inDiff then none else some note
    oneSentenceSummary := member.get "one_sentence_summary" (.str "")
    suggestionContent := (member.get "suggestion_content" (.str "")).orElse (.str note)
    label := (member.get "label" (.str "possible issue")).orElse (.str "possible issue")
    score := member.get "score" (.int 7)
    severity := member.get "severity" (.str "")
    resolvedByStage := if inDiff then "tier2_heavy" else "tier2_copy_patch"
    sourceTaskId := taskId }

/-- What `classify_heavy_repair_results` reads beside the manifest. -/
structure RepairInputs where
  fileHunks : List (String × List RepairHunk)
  diffFilePatches : List (String × String)
  taskById : List (String × RepairTask)

namespace HeavyEnv

variable (env : HeavyEnv) (inputs : RepairInputs)

/-- `str(value)`. -/
def str : JsonValue → String
  | .str text => text
  | value => env.repr value

/-- `status`. -/
def statusOf (entry : List (String × JsonValue)) : String :=
  env.lower (env.str ((entry.lookup "status").getD (.str "failed")))

/-- `note`. -/
def noteOf (entry : List (String × JsonValue)) : String :=
  env.str (((entry.lookup "note").getD (.str "")).orElse (.str ""))

/-- `files`. -/
def filesOf (task : Option RepairTask) (entry : List (String × JsonValue)) : JsonValue :=
  let baseRelevantFile := (task.map (·.relevantFile)).getD ""
  ((entry.lookup "files").getD .null).orElse
    (.arr (if baseRelevantFile ≠ "" then [.str baseRelevantFile] else []))

/-- `in_diff`; a file without a patch is not in the diff. -/
def inDiff (filePath : String) (hunk : RepairHunk) : Except String Bool :=
  let patch := (inputs.diffFilePatches.lookup filePath).getD ""
  if patch = "" then .ok false else env.lineRangeInDiffHunks patch hunk.oldStart hunk.oldEnd

/-- The result of a hunk of a file. -/
def classifyHunk (task : Option RepairTask) (taskId note filePath : String) (hunk : RepairHunk) :
    Except String Classified := do
  let inDiff ← env.inDiff inputs filePath hunk
  let item := repairItem task taskId note filePath hunk inDiff
  return if inDiff then { oneClick := [item] } else { copyPatch := [item] }

/-- The results of a file that an entry names. -/
def classifyFile (task : Option RepairTask) (taskId note : String) (file : JsonValue) :
    Except String Classified :=
  match file with
  | .str name =>
    collect (env.classifyHunk inputs task taskId note name) (hunksOf inputs.fileHunks name)
  | value => do
    raiseIf (!value.hashable) "unhashable type"
    return {}

/-- What the manifest says about a task. -/
def classifyEntry (taskId : String) (value : JsonValue) : Except String Classified :=
  match value with
  | .obj entry =>
    let task := inputs.taskById.lookup taskId
    let status := env.statusOf entry
    let note := env.noteOf entry
    if status ≠ "done" then
      .ok { failed := [(taskId, if note ≠ "" then note else s!"Tier-2 reported status={status}")] }
    else
      match (filesOf task entry).iterated with
      | none => .error "object is not iterable"
      | some files => do
        let produced ← collect (env.classifyFile inputs task taskId note) files
        if produced.oneClick.isEmpty && produced.copyPatch.isEmpty then
          return { failed := [(taskId, "manifest said done but no matching diff hunk was found")] }
        else return produced
  | _ => .error "object has no attribute 'get'"

/-- `classify_heavy_repair_results`. -/
def classifyHeavyRepairResults (manifest : List (String × JsonValue)) : Except String Classified :=
  collect (fun entry => env.classifyEntry inputs entry.1 entry.2) manifest

end HeavyEnv

/-! ## The session -/

/-- What is found in place of the manifest. -/
inductive ManifestFile where
  | missing
  | unreadable
  | loaded (data : JsonValue)

/-- `read_manifest`. -/
def readManifest : ManifestFile → List (String × JsonValue)
  | .loaded (.obj entries) => entries
  | _ => []

/-- What a session that has ended well leaves. -/
structure FinishedSession where
  diffText : String
  manifest : ManifestFile
  /-- The names and patches of the merge request's files, unless they cannot be read. -/
  diffFiles : Option (List (String × String))
  durationMs : Nat

inductive SessionOutcome where
  | cloneRaised (reason : String)
  | cloneFailed (reason : String)
  | copilotFailed (message : String)
  | finished (session : FinishedSession)

/-- `f"SUG-{i + 1:03d}"`. -/
def taskId (index : Nat) : String :=
  String.ofList ("SUG-".toList ++ (toString (index + 1)).toList.leftpad 3 '0')

/-- `task_ids`. -/
def taskIds (tasks : List RepairTask) : List String :=
  (List.range tasks.length).map taskId

/-- Every task fails for one reason. -/
def allFailed (tasks : List RepairTask) (reason : String) : Classified where
  failed := (taskIds tasks).map fun taskId => (taskId, reason)

/-- Every suggestion is tagged with the duration of the session. -/
def Classified.timed (classified : Classified) (durationMs : Nat) : Classified :=
  { classified with
    oneClick := classified.oneClick.map fun item => { item with tier2DurationMs := some durationMs }
    copyPatch := classified.copyPatch.map fun item =>
      { item with tier2DurationMs := some durationMs } }

/-- `diff_file_patches`; of two files with one name the last one counts. -/
def FinishedSession.diffFilePatches (session : FinishedSession) : List (String × String) :=
  (session.diffFiles.getD []).reverse

namespace HeavyEnv

variable (env : HeavyEnv)

/-- `run_heavy_repair`. -/
def runHeavyRepair (tasks : List RepairTask) (outcome : SessionOutcome) :
    Except String Classified :=
  if tasks = [] then .ok {}
  else
    match outcome with
    | .cloneRaised reason => .ok (allFailed tasks s!"clone error: {reason}")
    | .cloneFailed reason => .ok (allFailed tasks s!"ERROR{reason}")
    | .copilotFailed message => .ok (allFailed tasks message)
    | .finished session => do
      let fileHunks ← env.parseUnifiedDiff session.diffText
      let classified ← env.classifyHeavyRepairResults
        { fileHunks := fileHunks
          diffFilePatches := session.diffFilePatches
          taskById := (taskIds tasks).zip tasks }
        (readManifest session.manifest)
      return classified.timed session.durationMs

end HeavyEnv

end MrAgent.HeavyRepair
