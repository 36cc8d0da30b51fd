import MrAgent.NumberedHunks

namespace MrAgent

/-!
# The hunks that are written

The converter keeps one text. Here the same loop keeps the list of hunks with
their numbered lines, and the text is shown to be this list written down hunk by
hunk behind the header of the file.
-/

/-- A hunk as it is written: the lines of the new side carry their numbers. -/
structure NumberedHunk where
  header : List Char
  newLines : List (Int × List Char)
  oldLines : List (List Char)
deriving DecidableEq

/-- Lines with the numbers from a start on. -/
def numberFrom (start : Int) (lines : List (List Char)) : List (Int × List Char) :=
  lines.zipIdx.map fun entry => (start + entry.2, entry.1)

/-- The new side is written for a change, the old side for a deletion. -/
def numberedHunk
    (header : List Char)
    (start2 : Int)
    (newContent oldContent : List (List Char)) : NumberedHunk :=
  let isPlus := newContent.any fun line => line.head? = some '+'
  let isMinus := oldContent.any fun line => line.head? = some '-'
  { header
    newLines := if isPlus || isMinus then numberFrom start2 newContent else []
    oldLines := if isMinus then oldContent else [] }

namespace NumberedHunk

/-- Both sides behind the text so far. -/
def appendLines (hunk : NumberedHunk) (text : List Char) : List Char :=
  let withNew :=
    if hunk.newLines = [] ∧ hunk.oldLines = [] then text
    else
      rstrip text ++ "\n__new hunk__\n".toList ++
        hunk.newLines.flatMap fun entry => intText entry.1 ++ ' ' :: entry.2 ++ ['\n']
  if hunk.oldLines = [] then withNew
  else rstrip withNew ++ "\n__old hunk__\n".toList ++ hunk.oldLines.flatMap (· ++ ['\n'])

/-- A hunk behind the text so far. -/
def append (text : List Char) (hunk : NumberedHunk) : List Char :=
  hunk.appendLines
    (if hunk.header = [] then text else text ++ '\n' :: hunk.header ++ ['\n'])

end NumberedHunk

theorem numberFrom_eq_nil
    {start : Int}
    {lines : List (List Char)} :
    numberFrom start lines = [] ↔ lines = [] := by
  rw [numberFrom, List.map_eq_nil_iff, List.zipIdx_eq_nil_iff]

theorem appendSides_eq
    (header : List Char)
    (start2 : Int)
    (newContent oldContent : List (List Char))
    (text : List Char) :
    appendSides start2 newContent oldContent text =
      (numberedHunk header start2 newContent oldContent).appendLines text := by
  have numbered : numberedLines start2 newContent =
      (numberFrom start2 newContent).flatMap fun entry =>
        intText entry.1 ++ ' ' :: entry.2 ++ ['\n'] := by
    rw [numberedLines, numberFrom, List.flatMap_map]
  have plusFilled : (newContent.any fun line => line.head? = some '+') = true →
      newContent ≠ [] := by
    rintro found rfl
    exact Bool.false_ne_true found
  have minusFilled : (oldContent.any fun line => line.head? = some '-') = true →
      oldContent ≠ [] := by
    rintro found rfl
    exact Bool.false_ne_true found
  rw [appendSides, numberedHunk, NumberedHunk.appendLines, numbered]
  cases plus : newContent.any fun line => line.head? = some '+' with
  | false =>
      cases minus : oldContent.any fun line => line.head? = some '-' with
      | false => simp
      | true => simp [minusFilled minus]
  | true =>
      cases minus : oldContent.any fun line => line.head? = some '-' with
      | false => simp [numberFrom_eq_nil, plusFilled plus]
      | true => simp [minusFilled minus]

/-! ## The loop over the hunks -/

/-- The hunks written so far and the hunk that is being read. -/
structure HunkScan where
  written : List NumberedHunk := []
  newContent : List (List Char) := []
  oldContent : List (List Char) := []
  start2 : Int := -1
  header : List Char := []

namespace HunkScan

/-- The hunk that is being read. -/
def hunk (scan : HunkScan) : NumberedHunk :=
  numberedHunk scan.header scan.start2 scan.newContent scan.oldContent

/-- The previous hunk is written. -/
def finish (scan : HunkScan) : HunkScan :=
  if scan.newContent = [] ∧ scan.oldContent = [] then scan
  else { scan with written := scan.written ++ [scan.hunk], newContent := [], oldContent := [] }

/-- A header that has matched. -/
def enter (env : DigitEnv) (scan : HunkScan) (line : List Char) (found : HeaderMatch) : HunkScan :=
  { scan.finish with header := line, start2 := env.number found.start2 }

/-- A line of the body. -/
def content (scan : HunkScan) (line : List Char) : HunkScan :=
  if line.head? = some '+' then { scan with newContent := scan.newContent ++ [line] }
  else if line.head? = some '-' then { scan with oldContent := scan.oldContent ++ [line] }
  else
    { scan with
      newContent := scan.newContent ++ [line]
      oldContent := scan.oldContent ++ [line] }

/-- The loop over the lines. -/
def run (env : DigitEnv) : HunkScan → Bool → List (List Char) → Option HunkScan
  | scan, _, [] => some scan
  | scan, isFirst, line :: rest =>
    if isNoNewlineLine line then run env scan false rest
    else if startsHeader line then
      match env.matchHeader line with
      | some found => run env (scan.enter env line found) false rest
      | none => none
    else if line = [] && !isFirst && rest.head?.all startsHeader then run env scan false rest
    else run env (scan.content line) false rest

/-- The last hunk is written when its new side has a line. -/
def close (scan : HunkScan) : List NumberedHunk :=
  if scan.header ≠ [] ∧ scan.newContent ≠ [] then scan.written ++ [scan.hunk]
  else scan.written

/-- The state of the converter behind a first text. -/
def state (start : List Char) (scan : HunkScan) : ConvertScan :=
  { patchWithLines := scan.written.foldl NumberedHunk.append start
    newContent := scan.newContent
    oldContent := scan.oldContent
    matched := scan.header ≠ []
    start2 := scan.start2
    prevHeader := scan.header
    header := scan.header }

variable (start : List Char)

variable (scan : HunkScan)

theorem state_finish :
    (scan.state start).finish = scan.finish.state start := by
  rw [ConvertScan.finish, finish]
  change (if scan.newContent = [] ∧ scan.oldContent = [] then scan.state start else _) = _
  by_cases empty : scan.newContent = [] ∧ scan.oldContent = []
  · rw [if_pos empty, if_pos empty]
  · rw [if_neg empty, if_neg empty]
    simp only [appendSides_eq scan.header, state, List.foldl_append, List.foldl_cons,
      List.foldl_nil]
    rfl

variable (env : DigitEnv)

theorem state_enter
    (scan : HunkScan)
    {line : List Char}
    (filled : line ≠ [])
    (found : HeaderMatch) :
    (scan.state start).enter env line found = (scan.enter env line found).state start := by
  rw [ConvertScan.enter, enter, state_finish]
  simp only [state, filled, ne_eq, not_false_eq_true, decide_true]

theorem state_content
    (line : List Char) :
    (scan.state start).content line = (scan.content line).state start := by
  rw [ConvertScan.content, content]
  by_cases plus : line.head? = some '+'
  · rw [if_pos plus, if_pos plus]
    rfl
  · rw [if_neg plus, if_neg plus]
    by_cases minus : line.head? = some '-'
    · rw [if_pos minus, if_pos minus]
      rfl
    · rw [if_neg minus, if_neg minus]
      rfl

theorem state_run
    (lines : List (List Char))
    (scan : HunkScan)
    (isFirst : Bool) :
    ConvertScan.run env (scan.state start) isFirst lines =
      (run env scan isFirst lines).map (state start) := by
  induction lines generalizing scan isFirst with
  | nil =>
      rfl
  | cons line rest ih =>
      rw [ConvertScan.run, run]
      by_cases skipped : isNoNewlineLine line = true
      · rw [if_pos skipped, if_pos skipped, ih]
      · rw [if_neg skipped, if_neg skipped]
        by_cases header : startsHeader line = true
        · rw [if_pos header, if_pos header]
          cases env.matchHeader line with
          | none =>
              rfl
          | some found =>
              have filled : line ≠ [] := by
                rintro rfl
                exact absurd header (by decide)
              have further := ih (scan.enter env line found) false
              rw [← state_enter start env scan filled found] at further
              exact further
        · rw [if_neg header, if_neg header, state_content]
          split
          · exact ih scan false
          · exact ih (scan.content line) false

theorem state_close :
    (scan.state start).close = rstrip (scan.close.foldl NumberedHunk.append start) := by
  rw [ConvertScan.close, close]
  by_cases open_ : scan.header ≠ [] ∧ scan.newContent ≠ []
  · have matched : ((scan.state start).matched && decide ((scan.state start).newContent ≠ [])) =
        true := by
      simpa [state] using open_
    rw [if_pos matched, if_pos open_, appendSides_eq scan.header, List.foldl_append]
    rw [List.foldl_cons, List.foldl_nil, NumberedHunk.append]
    have header : (scan.hunk).header = scan.header := rfl
    rw [header, if_neg open_.1]
    rfl
  · have unmatched : ¬ ((scan.state start).matched &&
        decide ((scan.state start).newContent ≠ [])) = true := by
      simpa [state] using open_
    rw [if_neg unmatched, if_neg open_]
    rfl

end HunkScan

/-- The hunks that are written for a patch; a deleted file has none. -/
def writtenHunks
    (env : DigitEnv)
    (patch : String)
    (file : Option PatchFile) : Option (List NumberedHunk) :=
  match file.filter (·.editType = .deleted) with
  | some _ => some []
  | none => (HunkScan.run env {} true (splitLines patch)).map (·.close)

/-- The text of the hunks behind the header of the file. -/
def writtenText (file : Option PatchFile) (hunks : List NumberedHunk) : List Char :=
  match file.filter (·.editType = .deleted) with
  | some file =>
    "\n\n## File '".toList ++ strip file.filename.toList ++ "' was deleted\n".toList
  | none => rstrip (hunks.foldl NumberedHunk.append (fileHeader file))

theorem decouple_eq
    (env : DigitEnv)
    (patch : String)
    (file : Option PatchFile) :
    decoupleAndConvertToHunksWithLinesNumbers env patch file =
      (writtenHunks env patch file).map (writtenText file) := by
  rw [decoupleAndConvertToHunksWithLinesNumbers, writtenHunks]
  cases removed : file.filter (·.editType = .deleted) with
  | some info =>
      simp only [Option.map_some, writtenText, removed]
  | none =>
      have begun : ({ patchWithLines := fileHeader file } : ConvertScan) =
          HunkScan.state (fileHeader file) {} := by
        rfl
      simp only [begun, HunkScan.state_run, Option.map_map]
      congr 1
      funext scan
      simp only [Function.comp_apply, HunkScan.state_close, writtenText, removed]

end MrAgent
