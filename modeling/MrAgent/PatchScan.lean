import MrAgent.RepairText

namespace MrAgent

/-!
# Bounded patches

The report of a repair stores a bounded copy of every patch together with the
numbers of added and deleted lines. `_bounded_patch` counts while it cuts; the
owner page counts once more, in `repair_file_change_from_patch`, which follows
the hunks of the patch. The two have different notions of a line that counts.
-/

/-! ## `_bounded_patch` -/

/-- The limits of a bounded patch; `repair_report_setting` keeps them positive. -/
structure PatchLimits where
  maxHunks : Nat
  maxLines : Nat
  maxChars : Nat
  maxPatchChars : Nat
  maxCharsPositive : 0 < maxChars

/-- A line of a hunk body starts with a space, a plus or a minus. -/
def isBodyLine (line : List Char) : Bool :=
  match line with
  | [] => false
  | c :: _ => c = ' ' || c = '+' || c = '-'

/-- `_HUNK_RE`. -/
def isHunkLine (line : List Char) : Bool :=
  "@@ ".toList <+: line

/-- The variables of the loop. -/
structure PatchScan where
  output : List (List Char) := []
  additions : Nat := 0
  deletions : Nat := 0
  storedLines : Nat := 0
  omitted : Nat := 0
  hunks : Nat := 0
  keepHunk : Bool := false
  truncated : Bool := false
  storedChars : Nat := 0

namespace PatchScan

variable (limits : PatchLimits)

/-- The branch of a hunk header. -/
def header (scan : PatchScan) (line : List Char) : PatchScan :=
  let keep := decide (scan.hunks + 1 ≤ limits.maxHunks)
  let entered := { scan with hunks := scan.hunks + 1, keepHunk := keep }
  if keep && decide (scan.storedChars < limits.maxPatchChars) then
    let bounded := line.take (min limits.maxChars (limits.maxPatchChars - scan.storedChars))
    { entered with
      output := scan.output ++ [bounded]
      storedChars := scan.storedChars + bounded.length + 1 }
  else { entered with truncated := true }

/-- The counters of added and deleted lines. -/
def count (scan : PatchScan) (line : List Char) : PatchScan :=
  if ['+'] <+: line && !(['+', '+', '+'] <+: line) then
    { scan with additions := scan.additions + 1 }
  else if ['-'] <+: line && !(['-', '-', '-'] <+: line) then
    { scan with deletions := scan.deletions + 1 }
  else scan

/-- What happens to a line that is no hunk header, once it was counted. -/
def store (scan : PatchScan) (line : List Char) : PatchScan :=
  if !scan.keepHunk || line = [] || "\\ No newline".toList <+: line then
    if isBodyLine line then { scan with omitted := scan.omitted + 1 } else scan
  else if !isBodyLine line then scan
  else if limits.maxLines ≤ scan.storedLines then
    { scan with omitted := scan.omitted + 1, truncated := true }
  else if limits.maxPatchChars - scan.storedChars ≤ 1 then
    { scan with omitted := scan.omitted + 1, truncated := true }
  else
    let bounded := line.take (min limits.maxChars (limits.maxPatchChars - scan.storedChars))
    { scan with
      truncated := scan.truncated || decide (bounded.length < line.length)
      output := scan.output ++ [bounded]
      storedLines := scan.storedLines + 1
      storedChars := scan.storedChars + bounded.length + 1 }

/-- The body of the loop. -/
def step (scan : PatchScan) (line : List Char) : PatchScan :=
  if isHunkLine line then scan.header limits line
  else (scan.count line).store limits line

end PatchScan

/-- The result of `_bounded_patch`. -/
structure BoundedPatch where
  lines : List (List Char)
  additions : Nat
  deletions : Nat
  truncated : Bool
  omitted : Nat

/-- The text that is stored. -/
def BoundedPatch.text (patch : BoundedPatch) : List Char :=
  ['\n'].intercalate patch.lines

/-- `_bounded_patch`. -/
def boundedPatch (limits : PatchLimits) (rawPatch : String) : BoundedPatch :=
  let scan := (splitLines rawPatch).foldl (PatchScan.step limits) {}
  { lines := scan.output
    additions := scan.additions
    deletions := scan.deletions
    truncated := scan.truncated
    omitted := scan.omitted }

/-! ## `repair_file_change_from_patch` -/

/-- The kinds of a line of a diff. -/
inductive DiffLineKind where
  | context
  | addition
  | deletion
deriving DecidableEq

/-- `RepairDiffLine`. -/
structure RepairDiffLine where
  kind : DiffLineKind
  oldLine : Option Nat
  newLine : Option Nat
  content : String
deriving DecidableEq

/-- `RepairDiffHunk`. -/
structure RepairDiffHunk where
  oldStart : Nat
  newStart : Nat
  header : String
  lines : List RepairDiffLine
deriving DecidableEq

/-- `RepairFileChange`. -/
structure RepairFileChange where
  path : String
  changeType : String
  summary : String := ""
  additions : Nat
  deletions : Nat
  binary : Bool
  truncated : Bool
  omittedLines : Nat
  hunks : List RepairDiffHunk
deriving DecidableEq

/-- What reading a patch takes from Python: texts, decimal digits and their value. -/
structure PatchEnv extends RepairTextEnv where
  /-- `\d`. -/
  isDecimal : Char → Bool
  /-- `int` of some decimal digits. -/
  decimalValue : List Char → Nat

/-- What `_PATCH_HUNK_RE` finds. -/
structure HunkHeader where
  oldStart : Nat
  newStart : Nat
  text : List Char

namespace PatchEnv

variable (env : PatchEnv)

/-- `(\d+)(?:,(\d+))?`: the first number and the rest of the line. -/
def matchRange (line : List Char) : Option (Nat × List Char) :=
  let digits := line.takeWhile env.isDecimal
  let rest := line.dropWhile env.isDecimal
  if digits = [] then none
  else
    match rest with
    | ',' :: more =>
      if more.takeWhile env.isDecimal = [] then some (env.decimalValue digits, rest)
      else some (env.decimalValue digits, more.dropWhile env.isDecimal)
    | _ => some (env.decimalValue digits, rest)

/-- A text without a prefix that it has to have. -/
def dropPrefix (start line : List Char) : Option (List Char) :=
  if start <+: line then some (line.drop start.length) else none

/-- `_PATCH_HUNK_RE.match`. -/
def matchHunk (line : List Char) : Option HunkHeader := do
  let old ← env.matchRange (← dropPrefix "@@ -".toList line)
  let new ← env.matchRange (← dropPrefix " +".toList old.2)
  match ← dropPrefix " @@".toList new.2 with
  | [] => some ⟨old.1, new.1, []⟩
  | ' ' :: text => some ⟨old.1, new.1, text⟩
  | _ => none

end PatchEnv

/-- The variables of the loop. -/
structure ChangeScan where
  hunks : List RepairDiffHunk := []
  current : Option (List RepairDiffLine) := none
  header : String := ""
  oldStart : Nat := 0
  newStart : Nat := 0
  oldLine : Nat := 0
  newLine : Nat := 0
  additions : Nat := 0
  deletions : Nat := 0

namespace ChangeScan

/-- `finish_hunk`. -/
def finishHunk (scan : ChangeScan) : ChangeScan :=
  match scan.current with
  | none => scan
  | some lines =>
    { scan with
      hunks := scan.hunks ++ [⟨scan.oldStart, scan.newStart, scan.header, lines⟩]
      current := none }

variable (env : PatchEnv)

/-- The branch of a hunk header. -/
def enter (scan : ChangeScan) (hunk : HunkHeader) : ChangeScan :=
  { scan.finishHunk with
    oldStart := hunk.oldStart
    oldLine := hunk.oldStart
    newStart := hunk.newStart
    newLine := hunk.newStart
    header := env.sanitizeRepairText (String.ofList hunk.text) 200
    current := some [] }

/-- The stored content of a line behind its prefix. -/
def content (rest : List Char) : String :=
  String.ofList (((env.redactValues rest).filter (· ≠ Char.ofNat 0)).take 500)

/-- A line of the body of the current hunk. -/
def record
    (scan : ChangeScan)
    (lines : List RepairDiffLine)
    (first : Char)
    (rest : List Char) : ChangeScan :=
  if first = '+' then
    { scan with
      additions := scan.additions + 1
      newLine := scan.newLine + 1
      current := some (lines ++ [⟨.addition, none, some scan.newLine, content env rest⟩]) }
  else if first = '-' then
    { scan with
      deletions := scan.deletions + 1
      oldLine := scan.oldLine + 1
      current := some (lines ++ [⟨.deletion, some scan.oldLine, none, content env rest⟩]) }
  else
    { scan with
      oldLine := scan.oldLine + 1
      newLine := scan.newLine + 1
      current := some
        (lines ++ [⟨.context, some scan.oldLine, some scan.newLine, content env rest⟩]) }

/-- The body of the loop. -/
def step (scan : ChangeScan) (line : List Char) : ChangeScan :=
  match env.matchHunk line with
  | some hunk => scan.enter env hunk
  | none =>
    match scan.current, line with
    | none, _ => scan
    | some _, [] => scan
    | some lines, first :: rest =>
      if "\\ No newline".toList <+: first :: rest then scan
      else if first ≠ ' ' ∧ first ≠ '+' ∧ first ≠ '-' then scan
      else scan.record env lines first rest

end ChangeScan

/-- `_FILE_CHANGE_TYPES`. -/
def fileChangeTypes : List String :=
  ["added", "modified", "deleted", "renamed"]

/-- `repair_file_change_from_patch`. -/
def repairFileChangeFromPatch
    (env : PatchEnv)
    (path patch changeType : String)
    (truncated : Bool)
    (omittedLines : Int) : Option RepairFileChange :=
  (env.safePath path).map fun safePath =>
    let scan := ((splitLines patch).foldl (ChangeScan.step env) {}).finishHunk
    { path := safePath
      changeType := if changeType ∈ fileChangeTypes then changeType else "modified"
      additions := scan.additions
      deletions := scan.deletions
      binary := scan.hunks = [] && patch ≠ ""
      truncated := truncated
      omittedLines := omittedLines.toNat
      hunks := scan.hunks.take 20 }

end MrAgent
