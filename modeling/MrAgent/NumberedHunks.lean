import MrAgent.PatchText
import MrAgent.QuotedText

namespace MrAgent

/-!
# Hunks with line numbers

`decouple_and_convert_to_hunks_with_lines_numbers` reads a patch line by line,
collects the new and the old side of the current hunk and writes both when the
next header or the end of the patch is reached. New lines are numbered from the
start in the header.
-/

/-! ## The converter -/

/-- The members of `EDIT_TYPE`. -/
inductive EditType where
  | added
  | deleted
  | modified
  | renamed
  | unknown
deriving DecidableEq

/-- `FilePatchInfo`, as far as the converter reads it. -/
structure PatchFile where
  filename : String
  editType : EditType
deriving DecidableEq

/-- `str.rstrip()`. -/
def rstrip (text : List Char) : List Char :=
  text.rdropWhile isSpace

/-- `'no newline at end of file' in line.lower()` -/
def isNoNewlineLine (line : List Char) : Bool :=
  "no newline at end of file".toList <:+: line.map Char.toLower

/-- The variables of the loop. -/
structure ConvertScan where
  patchWithLines : List Char
  newContent : List (List Char) := []
  oldContent : List (List Char) := []
  matched : Bool := false
  start2 : Int := -1
  prevHeader : List Char := []
  header : List Char := []

/-- The numbered lines of the new side. -/
def numberedLines (start2 : Int) (newContent : List (List Char)) : List Char :=
  newContent.zipIdx.flatMap fun entry =>
    intText (start2 + entry.2) ++ ' ' :: entry.1 ++ ['\n']

/-- Both sides of a hunk behind the text so far. -/
def appendSides
    (start2 : Int)
    (newContent oldContent : List (List Char))
    (text : List Char) : List Char :=
  let isPlus := newContent.any fun line => line.head? = some '+'
  let isMinus := oldContent.any fun line => line.head? = some '-'
  let withNew :=
    if isPlus || isMinus then
      rstrip text ++ "\n__new hunk__\n".toList ++ numberedLines start2 newContent
    else text
  if isMinus then
    rstrip withNew ++ "\n__old hunk__\n".toList ++ oldContent.flatMap (· ++ ['\n'])
  else withNew

namespace ConvertScan

/-- The lines of the previous hunk are written when a header has matched. -/
def finish (scan : ConvertScan) : ConvertScan :=
  if scan.newContent = [] ∧ scan.oldContent = [] then scan
  else
    let headed :=
      if scan.prevHeader = [] then scan.patchWithLines
      else scan.patchWithLines ++ '\n' :: scan.prevHeader ++ ['\n']
    { scan with
      patchWithLines := appendSides scan.start2 scan.newContent scan.oldContent headed
      newContent := []
      oldContent := [] }

/-- A hunk header that has matched. -/
def enter (env : DigitEnv) (scan : ConvertScan) (line : List Char) (found : HeaderMatch) :
    ConvertScan :=
  { scan.finish with
    matched := true
    header := line
    prevHeader := line
    start2 := env.number found.start2 }

/-- A line of the body. -/
def content (scan : ConvertScan) (line : List Char) : ConvertScan :=
  if line.head? = some '+' then { scan with newContent := scan.newContent ++ [line] }
  else if line.head? = some '-' then { scan with oldContent := scan.oldContent ++ [line] }
  else
    { scan with
      newContent := scan.newContent ++ [line]
      oldContent := scan.oldContent ++ [line] }

/--
The loop over the lines; an empty line before a header or at the end is skipped
unless it is the first line. A header that does not match raises an error.
-/
def run (env : DigitEnv) : ConvertScan → Bool → List (List Char) → Option ConvertScan
  | scan, _, [] => some scan
  | scan, isFirst, line :: rest =>
    if isNoNewlineLine line then run env scan false rest
    else if startsHeader line then
      match env.matchHeader line with
      | some found => run env (scan.enter env line found) false rest
      | none => none
    else if line = [] && !isFirst && rest.head?.all startsHeader then run env scan false rest
    else run env (scan.content line) false rest

/-- The last hunk is written and the text is trimmed. -/
def close (scan : ConvertScan) : List Char :=
  if scan.matched && scan.newContent ≠ [] then
    rstrip (appendSides scan.start2 scan.newContent scan.oldContent
      (scan.patchWithLines ++ '\n' :: scan.header ++ ['\n']))
  else rstrip scan.patchWithLines

end ConvertScan

/-- The header of a file in front of its hunks. -/
def fileHeader (file : Option PatchFile) : List Char :=
  match file with
  | some file =>
    "\n\n## File: '".toList ++ strip file.filename.toList ++ "'\n".toList
  | none => []

/-- `decouple_and_convert_to_hunks_with_lines_numbers`; `none` when an error is raised. -/
def decoupleAndConvertToHunksWithLinesNumbers
    (env : DigitEnv)
    (patch : String)
    (file : Option PatchFile) : Option (List Char) :=
  match file.filter (·.editType = .deleted) with
  | some file =>
    some ("\n\n## File '".toList ++ strip file.filename.toList ++ "' was deleted\n".toList)
  | none =>
    (ConvertScan.run env { patchWithLines := fileHeader file } true (splitLines patch)).map
      (·.close)

end MrAgent
