import MrAgent.PatchText
import MrAgent.QuotedText

namespace MrAgent

/-!
# Blocks of numbered lines

`hunk_line_matcher.py` reads the text that the converter has written: the
sections of the files and, within a section, one block of numbered lines for
each `__new hunk__`.
-/

/-! ## Sections -/

/-- `\s*$` behind the quote that closes a name: the rest where the match ends. -/
def behindQuote (text : List Char) : Option (List Char) :=
  let space := text.takeWhile isSpace
  let behind := text.dropWhile isSpace
  if behind = [] then some []
  else if '\n' ∈ space then some ('\n' :: (space.rtakeWhile (· ≠ '\n') ++ behind))
  else none

/-- `(.+?)'\s*$` behind the reversed start of the name. -/
def readFileName : List Char → List Char → Option (List Char × List Char)
  | _, [] => none
  | name, c :: rest =>
    match if c = '\'' ∧ name ≠ [] then behindQuote rest else none with
    | some behind => some (name.reverse, behind)
    | none => if c = '\n' then none else readFileName (c :: name) rest

/-- A match of `_FILE_HEADER_RE` at the start of a line: the name and the rest. -/
def matchFileHeader (text : List Char) : Option (List Char × List Char) :=
  (afterStart "## File: '".toList text).bind (readFileName [])

/-- The text before the next file header, and the header with the rest. -/
def untilFileHeader : Bool → List Char → List Char × Option (List Char × List Char)
  | _, [] => ([], none)
  | lineStart, c :: rest =>
    match if lineStart then matchFileHeader (c :: rest) else none with
    | some found => ([], some found)
    | none =>
      let further := untilFileHeader (c = '\n') rest
      (c :: further.1, further.2)

/-- The sections from a header on. -/
def sectionsFrom : Nat → Option (List Char × List Char) → List (List Char × List Char)
  | 0, _ => []
  | _, none => []
  | fuel + 1, some (name, behind) =>
    let next := untilFileHeader false behind
    (strip name, next.1) :: sectionsFrom fuel next.2

/-- `_split_by_file` -/
def splitByFile (diff : List Char) : List (List Char × List Char) :=
  sectionsFrom diff.length (untilFileHeader true diff).2

/-- `_find_file_section` -/
def findFileSection (diff relevantFile : List Char) : Option (List Char) :=
  let file := strip relevantFile
  let sections := splitByFile diff
  match sections.find? (·.1 = file) with
  | some found => some found.2
  | none => (sections.find? fun found => file <:+ found.1 ∨ found.1 <:+ file).map (·.2)

/-! ## Blocks -/

/-- The numbered lines of a `__new hunk__`. -/
abbrev HunkBlock := List (Nat × List Char)

/-- A match of `_NEW_HUNK_LINE_RE`. -/
def DigitEnv.matchNewHunkLine (env : DigitEnv) (line : List Char) : Option (Nat × List Char) :=
  match env.takeDigits line with
  | some (digits, ' ' :: sign :: content) =>
    if sign = ' ' ∨ sign = '+' then some (env.number digits, content) else none
  | _ => none

/-- The blocks that are complete, and the one that is being read. -/
structure BlockReading where
  complete : List HunkBlock := []
  current : Option HunkBlock := none

namespace BlockReading

def close (reading : BlockReading) : List HunkBlock :=
  reading.complete ++ reading.current.toList

/-- The loop over the lines of a section. -/
def step (env : DigitEnv) (reading : BlockReading) (line : List Char) : BlockReading :=
  if strip line = "__new hunk__".toList then { complete := reading.close, current := some [] }
  else if strip line = "__old hunk__".toList then { complete := reading.close }
  else if startsHeader line then { complete := reading.close }
  else
    { reading with
      current := reading.current.map (· ++ (env.matchNewHunkLine line).toList) }

end BlockReading

/-- `_extract_new_hunk_blocks` -/
def extractNewHunkBlocks (env : DigitEnv) (text : List Char) : List HunkBlock :=
  ((splitLinesFrom [] text).foldl (BlockReading.step env) {}).close.filter (· ≠ [])

end MrAgent
