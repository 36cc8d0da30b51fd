import MrAgent.NumberedHunks
import MrAgent.PatchScan

namespace MrAgent

/-!
# Format reports

`PRFixFormat` reads the unified diffs of a format report and applies their
hunks to the files of the source branch. A hunk is read by the counts of its
header and placed by its start line; the lines that it removes are compared
with the file.
-/

/-- A hunk of a report. -/
structure ReportHunk where
  oldStart : Nat
  lines : List (DiffLineKind × List Char)
  oldNoNewline : Bool := false
  newNoNewline : Bool := false
deriving DecidableEq

/-! ## Paths -/

/-- A match of `\s+\([^)]*\)\s*$`. -/
def isTrailingComment (text : List Char) : Bool :=
  match text with
  | [] => false
  | c :: _ =>
    isSpace c &&
      match text.dropWhile isSpace with
      | '(' :: inside =>
        match inside.dropWhile (· ≠ ')') with
        | ')' :: behind => behind.all isSpace
        | _ => false
      | _ => false

/-- The text before the first trailing comment. -/
def dropTrailingComment : List Char → List Char
  | [] => []
  | c :: rest => if isTrailingComment (c :: rest) then [] else c :: dropTrailingComment rest

/-- One path component with its slash. -/
def afterComponent (path : List Char) : Option (List Char) :=
  match path.takeWhile (· ≠ '/'), path.dropWhile (· ≠ '/') with
  | _ :: _, '/' :: rest => some rest
  | _, _ => none

/-- The group of `_CI_PROJECT_DIR_RE`. -/
def afterProjectDir (path : List Char) : Option (List Char) :=
  let relative := match path with
    | '/' :: rest => rest
    | _ => path
  (afterStart "builds/".toList relative).bind fun group =>
    (afterComponent group).bind afterComponent

/-- `_extract_path` -/
def extractPath (raw : List Char) : List Char :=
  let named := strip (dropTrailingComment (raw.takeWhile (· ≠ '\t')))
  let rootless := if named.take 2 = "a/".toList ∨ named.take 2 = "b/".toList then named.drop 2
    else named
  match afterProjectDir rootless with
  | some (c :: rest) => c :: rest
  | _ => rootless

/-! ## Reading a report -/

/-- What has been read of a hunk: its lines, the counts of both sides and the last line. -/
structure HunkReading where
  lines : List (DiffLineKind × List Char) := []
  oldSeen : Nat := 0
  newSeen : Nat := 0
  last : Option DiffLineKind := none
  oldNoNewline : Bool := false
  newNoNewline : Bool := false

namespace HunkReading

/-- A line of the hunk; the empty line stands for an empty context line. -/
def tag : List Char → Option (DiffLineKind × List Char)
  | [] => some (.context, [])
  | ' ' :: text => some (.context, text)
  | '-' :: text => some (.deletion, text)
  | '+' :: text => some (.addition, text)
  | _ => none

/-- The marker of a missing newline belongs to the last line. -/
def noNewline (reading : HunkReading) : HunkReading :=
  { reading with
    oldNoNewline := reading.oldNoNewline || reading.last = some .deletion ||
      reading.last = some .context
    newNoNewline := reading.newNoNewline || reading.last = some .addition ||
      reading.last = some .context }

/-- A line is read. -/
def add (reading : HunkReading) (entry : DiffLineKind × List Char) : HunkReading :=
  { reading with
    lines := reading.lines ++ [entry]
    oldSeen := if entry.1 = .addition then reading.oldSeen else reading.oldSeen + 1
    newSeen := if entry.1 = .deletion then reading.newSeen else reading.newSeen + 1
    last := some entry.1 }

/-- The lines of a hunk up to its counts; the rest of the report is left. -/
def readBody
    (oldCount newCount : Nat) : HunkReading → List (List Char) → HunkReading × List (List Char)
  | reading, [] => (reading, [])
  | reading, line :: rest =>
    if line.head? = some '\\' then readBody oldCount newCount reading.noNewline rest
    else if oldCount ≤ reading.oldSeen ∧ newCount ≤ reading.newSeen then (reading, line :: rest)
    else
      match tag line with
      | none => (reading, line :: rest)
      | some entry => readBody oldCount newCount (reading.add entry) rest

/-- The hunk that has been read. -/
def hunk (reading : HunkReading) (oldStart : Nat) : ReportHunk :=
  { oldStart
    lines := reading.lines
    oldNoNewline := reading.oldNoNewline
    newNoNewline := reading.newNoNewline }

end HunkReading

/-- The files read so far, and the file that the next hunk belongs to. -/
structure ReportReading where
  files : List (List Char × List ReportHunk) := []
  current : Option (List Char) := none

namespace ReportReading

local instance lawfulPaths : LawfulBEq (List Char) := inferInstance

/-- `files.setdefault(path, [])` -/
def openFile (reading : ReportReading) (path : List Char) : ReportReading :=
  if path ≠ [] ∧ path ≠ "/dev/null".toList then
    { files :=
        if path ∈ reading.files.map (·.1) then reading.files else reading.files ++ [(path, [])]
      current := some path }
  else { reading with current := none }

/-- A hunk that has lines is added to the current file. -/
def addHunk (reading : ReportReading) (path : List Char) (hunk : ReportHunk) : ReportReading :=
  if hunk.lines = [] then reading
  else
    { reading with
      files := reading.files.map fun file =>
        if file.1 = path then (file.1, file.2 ++ [hunk]) else file }

/-- The header of a file begins here. -/
def opensFile (line next : List Char) : Bool :=
  let header := if "- --- ".toList <+: line then line.drop 2 else line
  "--- ".toList <+: header && "+++ ".toList <+: next

/-- The loop over the lines of a report. -/
def readFrom (env : DigitEnv) : Nat → ReportReading → List (List Char) → ReportReading
  | 0, reading, _ => reading
  | _, reading, [] => reading
  | fuel + 1, reading, line :: rest =>
    if opensFile line (rest.headD []) then
      readFrom env fuel (reading.openFile (extractPath ((rest.headD []).drop 4))) rest.tail
    else
      match env.matchHeader line, reading.current with
      | some header, some path =>
        let oldCount := (header.size1.map env.number).getD 1
        let newCount := (header.size2.map env.number).getD 1
        let body := HunkReading.readBody oldCount newCount {} rest
        readFrom env fuel (reading.addHunk path (body.1.hunk (env.number header.start1))) body.2
      | _, _ => readFrom env fuel reading rest

end ReportReading

/-- `_parse_unified_diff` -/
def parseUnifiedDiff (env : DigitEnv) (report : String) :
    List (List Char × List ReportHunk) :=
  let lines := splitLines report
  (ReportReading.readFrom env lines.length {} lines).files.filter (·.2 ≠ [])

/-! ## Applying hunks -/

/-- The lines of a hunk, applied from a line of the file on: the next line and the result. -/
def applyLines
    (original : List (List Char)) :
    Nat → List (DiffLineKind × List Char) → Option (Nat × List (List Char))
  | cursor, [] => some (cursor, [])
  | cursor, (.context, text) :: rest =>
    (applyLines original (cursor + 1) rest).map fun done =>
      (done.1, original.getD cursor text :: done.2)
  | cursor, (.deletion, text) :: rest =>
    match original[cursor]? with
    | none => none
    | some line =>
      if rstrip line = rstrip text then applyLines original (cursor + 1) rest else none
  | cursor, (.addition, text) :: rest =>
    (applyLines original cursor rest).map fun done => (done.1, text :: done.2)

/-- The hunks, applied from a line of the file on. -/
def applyFrom
    (original : List (List Char)) : Nat → List ReportHunk → Option (List (List Char))
  | cursor, [] => some (original.drop cursor)
  | cursor, hunk :: rest =>
    let target : Int := hunk.oldStart - 1
    if target < cursor ∨ target > original.length then none
    else
      (applyLines original target.toNat hunk.lines).bind fun done =>
        (applyFrom original done.1 rest).map fun tail =>
          (original.drop cursor).take (target.toNat - cursor) ++ (done.2 ++ tail)

/-- `_apply_hunks`; `none` is a file that is given up. -/
def applyHunks (original : String) (hunks : List ReportHunk) : Option (List Char) :=
  (applyFrom (splitLines original) 0 hunks).map fun result =>
    let content := List.intercalate ['\n'] result
    if hunks.any (·.newNoNewline) then content
    else if original.toList.getLast? = some '\n' ∨ hunks.any (·.oldNoNewline) then content ++ ['\n']
    else content

end MrAgent
