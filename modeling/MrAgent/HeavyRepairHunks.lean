import MrAgent.HeavyRepairAccounts
import MrAgent.ReportDiff

namespace MrAgent.HeavyRepair

open FallibleProgram

/-!
# Hunks that reproduce an edit

`git diff` shows three lines of context around the changes of a file. What
`parse_unified_diff` reads from it are ranges of the old file with the lines
that stand there and the lines that replace them.
-/

/-- The lines that open the diff of a file, behind the first one. -/
def extendedStarts : List String :=
  ["old mode ", "new mode ", "deleted file mode ", "new file mode ", "index ", "--- ", "+++ "]

/-- The unchanged lines at the start of a hunk. -/
def leading (body : List (DiffLineKind × FileLine)) : List (DiffLineKind × FileLine) :=
  body.takeWhile (·.1 = .context)

/-- `git diff` of two versions of a file. -/
structure GitDiff where
  name : String
  header : List Char
  wholeHeader : unbroken header = true
  /-- Git quotes a name with unusual characters. -/
  spelled : header = "diff --git a/".toList ++ name.toList ++ " b/".toList ++ name.toList ∨
    "diff --git \"".toList <+: header
  extended : List (List Char)
  wholeExtended : ∀ line ∈ extended, unbroken line = true ∧
    ∃ start ∈ extendedStarts, start.toList <+: line
  pieces : List DiffPiece
  tail : List FileLine
  oldEnded : WellEnded (versionLines DiffPiece.oldSide pieces tail)
  newEnded : WellEnded (versionLines DiffPiece.newSide pieces tail)
  /-- There are three lines of context, or all that the file has. -/
  context : ∀ front piece back, pieces = front ++ piece :: back →
    ((leading piece.body).length = 3 ∨
      (leading piece.body).length < 3 ∧ front = [] ∧ piece.gap = []) ∧
    ((leading piece.body.reverse).length = 3 ∨
      (leading piece.body.reverse).length < 3 ∧ back = [] ∧ tail = [])
  /-- A heading is a line above its hunk. -/
  headed : ∀ piece back, pieces = piece :: back → piece.gap = [] → piece.section_ = []

/-- The lines of some file lines as Python reads them. -/
def stems (lines : List FileLine) : List (List Char) :=
  lines.map FileLine.stem

namespace GitDiff

variable (diff : GitDiff)

def oldLines : List (List Char) :=
  stems (versionLines DiffPiece.oldSide diff.pieces diff.tail)

def newLines : List (List Char) :=
  stems (versionLines DiffPiece.newSide diff.pieces diff.tail)

/-- The text of the diff. -/
def text : List Char :=
  (diff.header :: diff.extended).flatMap (fun line => line ++ lineEnd false) ++
    piecesText 0 0 diff.pieces

/-- The name of the file is read from the first line. -/
def Named : Prop :=
  matchDiffGit diff.header = some diff.name.toList

end GitDiff

/-! ## Applying hunks -/

/-- The lines of a code text; the empty text has none. -/
def codeLines (code : String) : List (List Char) :=
  if code.toList = [] then [] else code.toList.splitOn '\n'

/-- The lines from one number to another. -/
def linesAt (lines : List (List Char)) (first last : Nat) : List (List Char) :=
  (lines.take last).drop (first - 1)

/-- The lines of a hunk are replaced by its code. -/
def replaceRange (hunk : RepairHunk) (lines : List (List Char)) : List (List Char) :=
  lines.take (hunk.oldStart - 1) ++ (codeLines hunk.improvedCode ++ lines.drop hunk.oldEnd)

/-- The hunks that are read show the old lines, and replacing them from the last one on edits
the file. -/
def Reproduces (env : HeavyEnv) (diff : GitDiff) : Prop :=
  ∃ files, env.parseUnifiedDiff (String.ofList diff.text) = .ok files ∧
    (∀ hunk ∈ hunksOf files diff.name,
      hunk.existingCode = joinLines (linesAt diff.oldLines hunk.oldStart hunk.oldEnd)) ∧
    (hunksOf files diff.name).foldr replaceRange diff.oldLines = diff.newLines


/-! ## The lines of the diff -/

/-- What line breaks of Python's cut off the heading of a hunk. -/
def cutOff (piece : DiffPiece) : List (List Char) :=
  (splitLinesFrom [] (piece.section_ ++ ['\n'])).tail

/-- The lines that Python reads behind the header of a hunk. -/
def readLines (piece : DiffPiece) : List (List Char) :=
  cutOff piece ++ splitLinesFrom [] (piece.body.flatMap entryText)

/-- A line that is neither the name of a file nor the header of a hunk. -/
def Unheaded (env : HeavyEnv) (line : List Char) : Prop :=
  matchDiffGit line = none ∧ env.digits.matchHeader line = none

namespace GitDiff

variable (diff : GitDiff)

/-- No line of a hunk has a part that is read as a header. -/
def Unforged (env : HeavyEnv) : Prop :=
  ∀ piece ∈ diff.pieces, ∀ line ∈ readLines piece, Unheaded env line

/-- No line of a hunk has a line break of Python's inside, and no heading adds lines. -/
def Unsplit : Prop :=
  ∀ piece ∈ diff.pieces, (∀ entry ∈ piece.body, entry.2.Plain) ∧
    ∀ line ∈ cutOff piece, line.head? ∉ [some '-', some '+', some ' ']

/-- The new version is more than one blank line. -/
def NotBlank : Prop :=
  diff.pieces ≠ [] → diff.newLines ≠ [[]]

end GitDiff

theorem splitLinesFrom_heading
    {heading : List Char}
    (whole : '\n' ∉ heading) :
    ∃ first more, splitLinesFrom [] (heading ++ ['\n']) = first :: more ∧ '\n' ∉ first ∧
      ∀ start rest, splitLinesFrom start (heading ++ '\n' :: rest) =
        (start.reverse ++ first) :: (more ++ splitLinesFrom [] rest) := by
  induction heading with
  | nil =>
      refine ⟨[], [], rfl, List.not_mem_nil, fun start rest => ?_⟩
      rw [List.nil_append, splitLinesFrom_break (by decide) (by decide), List.append_nil,
        List.nil_append]
  | cons c heading ih =>
      rw [List.mem_cons, not_or] at whole
      obtain ⟨first, more, alone, firstWhole, behind⟩ := ih whole.2
      by_cases plain : isLineBreak c = false
      · refine ⟨c :: first, more, ?_, ?_, fun start rest => ?_⟩
        · rw [List.cons_append, splitLinesFrom_cons plain, behind [c] []]
          simp [splitLinesFrom]
        · exact fun member => (List.mem_cons.mp member).elim whole.1 firstWhole
        · rw [List.cons_append, splitLinesFrom_cons plain, behind (c :: start) rest]
          simp
      rw [Bool.not_eq_false] at plain
      by_cases isReturn : c = '\r'
      · subst isReturn
        cases heading with
        | nil => exact ⟨[], [], rfl, List.not_mem_nil, fun start rest => by simp [splitLinesFrom]⟩
        | cons next heading =>
            have apart : ∀ rest, ((next :: heading) ++ '\n' :: rest).head? ≠ some '\n' := by
              intro rest same
              rw [List.mem_cons, not_or] at whole
              exact whole.2.1 (Option.some.inj same).symm
            refine ⟨[], first :: more, ?_, List.not_mem_nil, fun start rest => ?_⟩
            · rw [List.cons_append, splitLinesFrom_return (apart []), alone]
              rfl
            · rw [List.cons_append, splitLinesFrom_return (apart rest), behind [] rest]
              simp
      · refine ⟨[], first :: more, ?_, List.not_mem_nil, fun start rest => ?_⟩
        · rw [List.cons_append, splitLinesFrom_break plain isReturn, alone]
          rfl
        · rw [List.cons_append, splitLinesFrom_break plain isReturn, behind [] rest]
          simp

theorem splitLinesFrom_entry
    (entry : DiffLineKind × FileLine)
    (rest : List Char) :
    splitLinesFrom [] (entryText entry ++ rest) =
      splitLinesFrom [] (entryText entry) ++ splitLinesFrom [] rest := by
  have whole : '\n' ∉ entry.1.sign :: entry.2.text := by
    have noSign : '\n' ≠ entry.1.sign := by
      cases entry.1 <;> decide
    exact fun member => (List.mem_cons.mp member).elim noSign entry.2.whole
  obtain ⟨first, more, alone, _, behind⟩ := splitLinesFrom_heading whole
  cases ended : entry.2.ended with
  | true =>
      have shape : entryText entry = (entry.1.sign :: entry.2.text) ++ ['\n'] := by
        simp [entryText, ended, lineEnd]
      rw [shape, List.append_assoc, List.singleton_append, behind [] rest, alone]
      rfl
  | false =>
      have marker : unbroken noNewlineMarker = true := by decide
      have shape : ∀ rest, entryText entry ++ rest =
          (entry.1.sign :: entry.2.text) ++
            '\n' :: (noNewlineMarker ++ (lineEnd false ++ rest)) := by
        simp [entryText, ended, lineEnd]
      have alone := shape []
      rw [List.append_nil] at alone
      rw [shape rest, alone, behind [], behind [], splitLinesFrom_lf marker,
        splitLinesFrom_lf marker]
      simp [splitLinesFrom]

theorem splitLinesFrom_entries
    (body : List (DiffLineKind × FileLine))
    (rest : List Char) :
    splitLinesFrom [] (body.flatMap entryText ++ rest) =
      splitLinesFrom [] (body.flatMap entryText) ++ splitLinesFrom [] rest := by
  induction body with
  | nil => rfl
  | cons entry body ih =>
      rw [List.flatMap_cons, List.append_assoc, splitLinesFrom_entry, ih,
        splitLinesFrom_entry entry (body.flatMap entryText), List.append_assoc]

/-! ## Reading the hunks -/

/-- The texts of the lines with one of some signs. -/
def textsOf (signs : List Char) (lines : List (List Char)) : List (List Char) :=
  lines.filterMap fun line =>
    match line with
    | [] => none
    | sign :: text => if sign ∈ signs then some text else none

/-- The lines behind the header are read into the hunk. -/
def OpenHunk.extend (hunk : OpenHunk) (lines : List (List Char)) : OpenHunk :=
  { hunk with
    oldLines := hunk.oldLines ++ textsOf ['-', ' '] lines
    newLines := hunk.newLines ++ textsOf ['+', ' '] lines }

variable (signs : List Char)

theorem textsOf_append
    (first second : List (List Char)) :
    textsOf signs (first ++ second) = textsOf signs first ++ textsOf signs second :=
  List.filterMap_append

theorem OpenHunk.extend_extend
    (hunk : OpenHunk)
    (first second : List (List Char)) :
    (hunk.extend first).extend second = hunk.extend (first ++ second) := by
  simp only [extend, textsOf_append, List.append_assoc]

/-- The header of a hunk, behind some lines of the old file. -/
def headerHunk (before : Nat) (piece : DiffPiece) : OpenHunk where
  oldStart := DiffPiece.startOf before piece.oldSide.length
  oldCount := piece.oldSide.length

/-- The hunks that are read from a diff. -/
def readHunks : Nat → List DiffPiece → List RepairHunk
  | _, [] => []
  | before, piece :: rest =>
    let here := before + piece.gap.length
    ((headerHunk here piece).extend (readLines piece)).close ::
      readHunks (here + piece.oldSide.length) rest

/-- What `flush_hunk` stores. -/
def store
    (current : Option String)
    (files : List (String × List RepairHunk))
    (hunk : RepairHunk) : List (String × List RepairHunk) :=
  match current with
  | some name => addHunk files name hunk
  | none => files

section Reading

variable {env : HeavyEnv} {reading : DiffReading}

theorem foldlM_unheaded
    {lines : List (List Char)}
    (unheaded : ∀ line ∈ lines, Unheaded env line)
    {hunk : OpenHunk}
    (opened : reading.currentHunk = some hunk) :
    lines.foldlM env.readLine reading =
      .ok { reading with currentHunk := some (hunk.extend lines) } := by
  induction lines generalizing reading hunk with
  | nil =>
      simp only [List.foldlM_nil, OpenHunk.extend, textsOf, List.filterMap_nil, List.append_nil,
        ← opened]
      rfl
  | cons line rest ih =>
      rw [List.forall_mem_cons] at unheaded
      obtain ⟨noName, noHeader⟩ := unheaded.1
      have read : env.readLine reading line =
          .ok { reading with currentHunk := some (hunk.extend [line]) } := by
        obtain ⟨files, currentFile, current⟩ := reading
        obtain rfl : current = some hunk := opened
        simp only [HeavyEnv.readLine, noName, noHeader, DiffReading.readBody]
        cases line with
        | nil => simp [OpenHunk.extend, textsOf]
        | cons sign text => split <;> simp_all [OpenHunk.extend, textsOf]
      rw [List.foldlM_cons, read]
      refine (ih unheaded.2 rfl).trans ?_
      rw [OpenHunk.extend_extend, List.singleton_append]

theorem readLine_header
    (piece : DiffPiece)
    (before1 before2 : Nat)
    (numbers : ∀ found, env.digits.matchHeader (piece.header before1 before2) = some found →
      HeavyEnv.NumbersReadable found.start1 found.size1) :
    env.readLine reading (piece.header before1 before2) = .ok { reading.flushHunk with
      currentHunk := some {
        oldStart := DiffPiece.startOf before1 piece.oldSide.length
        oldCount := piece.oldSide.length } } := by
  obtain ⟨found, matched, start, size, _⟩ := env.digits.matchHeader_piece piece before1 before2
  have readable := numbers found matched
  have oldStart := (@HeavyEnv.readInt_eq_ok env _ _).mpr ⟨readable.1, start⟩
  have oldCount := (@HeavyEnv.readSize_eq_ok env _ _).mpr ⟨readable.2, size⟩
  have unnamed : matchDiffGit (piece.header before1 before2) = none := by
    cases named : matchDiffGit (piece.header before1 before2) with
    | none => rfl
    | some name =>
        rw [@HeavyEnv.matchHeader_of_matchDiffGit env _ _ named] at matched
        cases matched
  simp only [HeavyEnv.readLine, unnamed, matched, oldStart, oldCount, bind, Except.bind, pure,
    Except.pure]

theorem flushHunk_currentFile
    (reading : DiffReading) :
    reading.flushHunk.currentFile = reading.currentFile := by
  rw [DiffReading.flushHunk]
  split <;> rfl

theorem flushHunk_files
    {hunk : OpenHunk}
    (opened : reading.currentHunk = some hunk) :
    reading.flushHunk.files = store reading.currentFile reading.files hunk.close := by
  rw [DiffReading.flushHunk, opened]
  cases reading.currentFile <;> rfl

theorem foldlM_pieces
    {pieces : List DiffPiece}
    (unforged : ∀ piece ∈ pieces, ∀ line ∈ readLines piece, Unheaded env line)
    (before1 before2 : Nat)
    (numbers : ∀ line ∈ splitLinesFrom [] (piecesText before1 before2 pieces), ∀ found,
      env.digits.matchHeader line = some found →
        HeavyEnv.NumbersReadable found.start1 found.size1) :
    ∃ final, (splitLinesFrom [] (piecesText before1 before2 pieces)).foldlM env.readLine reading =
        .ok final ∧
      final.flushHunk.files = (readHunks before1 pieces).foldl (store reading.currentFile)
        reading.flushHunk.files := by
  induction pieces generalizing before1 before2 reading with
  | nil => exact ⟨reading, rfl, rfl⟩
  | cons piece rest ih =>
      rw [List.forall_mem_cons] at unforged
      obtain ⟨first, more, fragments, whole, behind⟩ := splitLinesFrom_heading piece.wholeSection
      let here1 := before1 + piece.gap.length
      let here2 := before2 + piece.gap.length
      let bare := { piece with section_ := [], wholeSection := List.not_mem_nil }
      let cut := { piece with section_ := first, wholeSection := whole }
      let after := piecesText (here1 + piece.oldSide.length) (here2 + piece.newSide.length) rest
      have lines : splitLinesFrom [] (piecesText before1 before2 (piece :: rest)) =
          cut.header here1 here2 :: (readLines piece ++ splitLinesFrom [] after) := by
        have bareWhole : unbroken (bare.header here1 here2) = true :=
          DiffPiece.unbroken_header rfl here1 here2
        have shape : piecesText before1 before2 (piece :: rest) =
            bare.header here1 here2 ++ (piece.section_ ++ '\n' :: (piece.body.flatMap entryText ++
              after)) := by
          simp [piecesText, DiffPiece.header, bare, here1, here2, after, lineEnd, DiffPiece.oldSide,
            DiffPiece.newSide]
        rw [shape, splitLinesFrom_append bareWhole, behind, splitLinesFrom_entries, readLines,
          cutOff, fragments]
        simp [DiffPiece.header, bare, cut, DiffPiece.oldSide, DiffPiece.newSide]
      rw [lines] at numbers ⊢
      have header := numbers _ List.mem_cons_self
      have later : ∀ line ∈ splitLinesFrom [] after, ∀ found,
          env.digits.matchHeader line = some found →
            HeavyEnv.NumbersReadable found.start1 found.size1 := fun line member =>
        numbers line (List.mem_cons_of_mem _ (List.mem_append_right _ member))
      let opened : DiffReading :=
        { reading.flushHunk with currentHunk := some (headerHunk here1 piece) }
      let filled : DiffReading :=
        { opened with currentHunk := some ((headerHunk here1 piece).extend (readLines piece)) }
      have same : filled.currentFile = reading.currentFile := flushHunk_currentFile reading
      have flushed : filled.flushHunk.files = store reading.currentFile reading.flushHunk.files
          ((headerHunk here1 piece).extend (readLines piece)).close := by
        rw [flushHunk_files rfl, same]
      obtain ⟨final, read, files⟩ := @ih filled unforged.2
        (here1 + piece.oldSide.length) (here2 + piece.newSide.length) later
      refine ⟨final, ?_, ?_⟩
      · have body : (readLines piece).foldlM env.readLine opened = .ok filled :=
          foldlM_unheaded unforged.1 rfl
        rw [List.foldlM_cons, readLine_header cut here1 here2 header]
        change (readLines piece ++ splitLinesFrom [] after).foldlM env.readLine opened = .ok final
        rw [List.foldlM_append, body]
        exact read
      · rw [files, same, flushed]
        rfl

theorem foldlM_extended
    (closed : reading.currentHunk = none)
    {lines : List (List Char)}
    (known : ∀ line ∈ lines, unbroken line = true ∧
      ∃ start ∈ extendedStarts, start.toList <+: line) :
    lines.foldlM env.readLine reading = .ok reading := by
  have starts : ∀ start ∈ extendedStarts, 2 ≤ start.toList.length ∧
      start.toList.take 2 ≠ "di".toList ∧ start.toList.take 2 ≠ "@@".toList := by
    decide
  induction lines with
  | nil => rfl
  | cons line rest ih =>
      rw [List.forall_mem_cons] at known
      obtain ⟨start, member, opens⟩ := known.1.2
      obtain ⟨long, noName, noHeader⟩ := starts start member
      have same : line.take 2 = start.toList.take 2 := by
        obtain ⟨behind, rfl⟩ := opens
        exact List.take_append_of_le_length long
      rw [← same] at noName noHeader
      have unnamed : matchDiffGit line = none := by
        rw [matchDiffGit, afterStart, if_neg]
        · rfl
        · rintro ⟨behind, rfl⟩
          exact noName rfl
      have headless : env.digits.matchHeader line = none := by
        rw [DigitEnv.matchHeader, afterStart, if_neg]
        · rfl
        · rintro ⟨behind, rfl⟩
          exact noHeader rfl
      have read : env.readLine reading line = .ok reading := by
        simp only [HeavyEnv.readLine, unnamed, headless, DiffReading.readBody, closed]
      rw [List.foldlM_cons, read]
      exact ih known.2

end Reading

theorem hunksOf_addHunk
    (files : List (String × List RepairHunk))
    (name : String)
    (hunk : RepairHunk) :
    hunksOf (addHunk files name hunk) name = hunksOf files name ++ [hunk] := by
  rw [addHunk]
  split
  · rename_i known
    induction files with
    | nil => cases known
    | cons file rest ih =>
        obtain ⟨key, hunks⟩ := file
        by_cases same : key = name
        · subst same
          simp [hunksOf]
        · have later : name ∈ rest.map (·.1) :=
            (List.mem_cons.mp known).resolve_left fun here => same here.symm
          have passed : (name == key) = false := beq_false_of_ne fun here => same here.symm
          have further := ih later
          simp only [hunksOf, List.map_cons, same, ↓reduceIte, List.lookup_cons, passed]
            at further ⊢
          exact further
  · rename_i fresh
    have absent : files.lookup name = none := by
      rw [List.lookup_eq_none_iff]
      intro file member
      refine bne_iff_ne.mpr fun here => fresh ?_
      rw [here]
      exact List.mem_map_of_mem member
    simp [hunksOf, List.lookup_append, absent]

theorem hunksOf_addHunk_ne
    (files : List (String × List RepairHunk))
    {name other : String}
    (apart : other ≠ name)
    (hunk : RepairHunk) :
    hunksOf (addHunk files other hunk) name = hunksOf files name := by
  rw [addHunk]
  split
  · clear * - apart
    induction files with
    | nil => rfl
    | cons file rest ih =>
        obtain ⟨key, hunks⟩ := file
        rw [hunksOf, List.map_cons, List.lookup_cons]
        by_cases here : key = other
        · have passed : (name == key) = false :=
            beq_false_of_ne fun same => apart (same ▸ here).symm
          simpa [here, hunksOf, List.lookup_cons, passed, beq_false_of_ne apart.symm] using
            ih
        · rw [if_neg here, hunksOf, List.lookup_cons]
          cases name == key with
          | true => rfl
          | false => exact ih
  · have passed : (name == other) = false := beq_false_of_ne apart.symm
    simp [hunksOf, List.lookup_append, List.lookup_cons, passed]

theorem hunksOf_store
    (current : Option String)
    (name : String)
    (hunks : List RepairHunk)
    (files : List (String × List RepairHunk)) :
    hunksOf (hunks.foldl (store current) files) name =
      hunksOf files name ++ if current = some name then hunks else [] := by
  induction hunks generalizing files with
  | nil => simp
  | cons hunk rest ih =>
      rw [List.foldl_cons, ih]
      cases current with
      | none => simp [store]
      | some other =>
          by_cases same : other = name
          · subst same
            simp [store, hunksOf_addHunk]
          · simp [store, same, hunksOf_addHunk_ne files same]

variable {lines : List (List Char)}

theorem splitLinesFrom_lines
    (whole : ∀ line ∈ lines, unbroken line = true)
    (rest : List Char) :
    splitLinesFrom [] (lines.flatMap (fun line => line ++ lineEnd false) ++ rest) =
      lines ++ splitLinesFrom [] rest := by
  induction lines with
  | nil => rfl
  | cons line lines ih =>
      rw [List.forall_mem_cons] at whole
      rw [List.flatMap_cons, List.append_assoc, List.append_assoc, splitLinesFrom_lf whole.1,
        ih whole.2, List.cons_append]

variable (diff : GitDiff)

theorem GitDiff.named_iff :
    (matchDiffGit diff.header).map String.ofList = some diff.name ↔ diff.Named := by
  rw [Named, Option.map_eq_some_iff]
  constructor
  · rintro ⟨name, read, same⟩
    rw [read, ← same, String.toList_ofList]
  · exact fun named => ⟨_, named, String.ofList_toList⟩

theorem parse_unforged
    {env : HeavyEnv}
    {diff : GitDiff}
    (unforged : diff.Unforged env)
    (numbers : env.DiffReadable (String.ofList diff.text)) :
    ∃ files, env.parseUnifiedDiff (String.ofList diff.text) = .ok files ∧
      (diff.Named → hunksOf files diff.name = readHunks 0 diff.pieces) ∧
      (¬ diff.Named → hunksOf files diff.name = []) := by
  have lines : splitLines (String.ofList diff.text) =
      diff.header :: (diff.extended ++ splitLinesFrom [] (piecesText 0 0 diff.pieces)) := by
    rw [splitLines, String.toList_ofList, GitDiff.text]
    refine splitLinesFrom_lines (List.forall_mem_cons.mpr ⟨diff.wholeHeader, ?_⟩) _
    exact fun line member => (diff.wholeExtended line member).1
  rw [HeavyEnv.DiffReadable, lines] at numbers
  let opened : DiffReading := { currentFile := (matchDiffGit diff.header).map String.ofList }
  obtain ⟨final, read, files⟩ := @foldlM_pieces env opened _ unforged 0 0
    (fun line member => numbers line (List.mem_cons_of_mem _ (List.mem_append_right _ member)))
  refine ⟨final.flushHunk.files, ?_, ?_, ?_⟩
  · have header : env.readLine {} diff.header = .ok opened := by
      have headless : env.digits.matchHeader diff.header = none := by
        rw [DigitEnv.matchHeader, afterStart, if_neg]
        · rfl
        · rintro ⟨behind, same⟩
          rcases diff.spelled with plain | ⟨quoted, plain⟩
          · rw [← same] at plain
            cases plain
          · rw [← same] at plain
            cases plain
      cases named : matchDiffGit diff.header with
      | none => simp [HeavyEnv.readLine, named, headless, DiffReading.readBody, opened]
      | some name => simp [HeavyEnv.readLine, named, DiffReading.flushHunk, opened]
    have extended : diff.extended.foldlM env.readLine opened = .ok opened :=
      foldlM_extended rfl diff.wholeExtended
    rw [HeavyEnv.parseUnifiedDiff, lines, List.foldlM_cons, header]
    change (do let reading ← (diff.extended ++ _).foldlM env.readLine opened; _) = _
    rw [List.foldlM_append, extended]
    change (do let reading ← List.foldlM env.readLine opened _; _) = _
    rw [read]
    rfl
  · intro named
    rw [files, hunksOf_store, if_pos (diff.named_iff.mpr named)]
    rfl
  · intro unnamed
    rw [files, hunksOf_store, if_neg (fun named => unnamed (diff.named_iff.mp named))]
    rfl

/-! ## The edit -/

/-- A hunk without old lines stands at the start of the file. -/
def Anchored : Nat → List DiffPiece → Prop
  | _, [] => True
  | before, piece :: rest =>
    (piece.oldSide = [] → before + piece.gap.length = 0) ∧
      Anchored (before + piece.gap.length + piece.oldSide.length) rest

theorem leading_context
    {body : List (DiffLineKind × FileLine)}
    {entry : DiffLineKind × FileLine}
    (member : entry ∈ leading body) :
    entry ∈ body ∧ entry.1 = .context := by
  rw [leading] at member
  have kept := List.mem_takeWhile_imp member
  exact ⟨(List.takeWhile_sublist _).subset member, of_decide_eq_true kept⟩

theorem length_leading_le
    (piece : DiffPiece) :
    (leading piece.body).length ≤ piece.oldSide.length ∧
      (leading piece.body).length ≤ piece.newSide.length ∧
      (leading piece.body.reverse).length ≤ piece.newSide.length := by
  have inside : ∀ other : DiffLineKind, other ≠ .context → ∀ body : List (DiffLineKind × FileLine),
      (leading body).length ≤ (body.filter (·.1 ≠ other)).length := by
    intro other notContext body
    have kept : (leading body).filter (·.1 ≠ other) = leading body := by
      refine List.filter_eq_self.mpr fun entry member => decide_eq_true ?_
      rw [(leading_context member).2]
      exact notContext.symm
    rw [← kept]
    exact ((List.takeWhile_sublist _).filter _).length_le
  refine ⟨?_, ?_, ?_⟩
  · rw [DiffPiece.oldSide, List.length_map]
    exact inside .addition (by decide) piece.body
  · rw [DiffPiece.newSide, List.length_map]
    exact inside .deletion (by decide) piece.body
  · have behind := inside .deletion (by decide) piece.body.reverse
    rw [List.filter_reverse, List.length_reverse] at behind
    rw [DiffPiece.newSide, List.length_map]
    exact behind

theorem GitDiff.anchored :
    Anchored 0 diff.pieces := by
  have suffix : ∀ (back front : List DiffPiece) (before : Nat), diff.pieces = front ++ back →
      (front = [] → before = 0) → Anchored before back := by
    intro back
    induction back with
    | nil => exact fun _ _ _ _ => trivial
    | cons piece rest ih =>
        intro front before shape start
        refine ⟨fun empty => ?_, ih (front ++ [piece]) _ (by simp [shape])
          fun impossible => absurd impossible (by simp)⟩
        have few := (length_leading_le piece).1
        rw [empty] at few
        rcases (diff.context front piece rest shape).1 with full | ⟨_, first, noGap⟩
        · rw [full] at few
          exact absurd few (by decide)
        · rw [start first, noGap]
          rfl
  exact suffix diff.pieces [] 0 rfl fun _ => rfl

variable {piece : DiffPiece}

theorem range_at
    {front : List (List Char)}
    (anchored : piece.oldSide = [] → front.length = 0)
    (lines rest : List (List Char)) :
    let hunk := ((headerHunk front.length piece).extend lines).close
    linesAt (front ++ (stems piece.oldSide ++ rest)) hunk.oldStart hunk.oldEnd =
        stems piece.oldSide ∧
      replaceRange hunk (front ++ (stems piece.oldSide ++ rest)) =
        front ++ (codeLines hunk.improvedCode ++ rest) := by
  have size : (stems piece.oldSide).length = piece.oldSide.length := List.length_map _
  by_cases empty : piece.oldSide = []
  · obtain rfl := List.length_eq_zero_iff.mp (anchored empty)
    simp [headerHunk, OpenHunk.extend, OpenHunk.close, DiffPiece.startOf, linesAt, replaceRange,
      empty, stems]
  · have filled : 0 < piece.oldSide.length := List.length_pos_iff.mpr empty
    have start : ((headerHunk front.length piece).extend lines).close.oldStart =
        front.length + 1 := by
      simp [headerHunk, OpenHunk.extend, OpenHunk.close, DiffPiece.startOf, empty]
    have stop : ((headerHunk front.length piece).extend lines).close.oldEnd =
        (front ++ stems piece.oldSide).length := by
      rw [List.length_append, size]
      simp [headerHunk, OpenHunk.extend, OpenHunk.close, DiffPiece.startOf, empty, filled]
      omega
    simp only [linesAt, replaceRange, start, stop, Nat.add_sub_cancel]
    rw [← List.append_assoc, List.take_left' rfl, List.drop_left' rfl, List.drop_left' rfl,
      List.append_assoc, List.take_left' rfl]
    exact ⟨rfl, rfl⟩

/-- The lines that replace a hunk. -/
def replacement (piece : DiffPiece) : List (List Char) :=
  codeLines (joinLines (textsOf ['+', ' '] (readLines piece)))

/-- A hunk shows the lines of its old side. -/
def Shown (piece : DiffPiece) : Prop :=
  joinLines (textsOf ['-', ' '] (readLines piece)) = joinLines (stems piece.oldSide)

/-- The lines that the hunks make of a file. -/
def editedLines (pieces : List DiffPiece) (tail : List FileLine) : List (List Char) :=
  pieces.flatMap (fun piece => stems piece.gap ++ replacement piece) ++ stems tail

theorem stems_versionLines
    (side : DiffPiece → List FileLine)
    (piece : DiffPiece)
    (rest : List DiffPiece)
    (tail : List FileLine) :
    stems (versionLines side (piece :: rest) tail) =
      stems piece.gap ++ (stems (side piece) ++ stems (versionLines side rest tail)) := by
  simp [stems, versionLines]

theorem readHunks_edit
    {pieces : List DiffPiece}
    (tail : List FileLine)
    {before : List (List Char)}
    (anchored : Anchored before.length pieces) :
    let old := before ++ stems (versionLines DiffPiece.oldSide pieces tail)
    ((∀ hunk ∈ readHunks before.length pieces,
        hunk.existingCode = joinLines (linesAt old hunk.oldStart hunk.oldEnd)) ↔
      ∀ piece ∈ pieces, Shown piece) ∧
    (readHunks before.length pieces).foldr replaceRange old =
      before ++ editedLines pieces tail := by
  induction pieces generalizing before with
  | nil => exact ⟨⟨fun _ _ member => absurd member List.not_mem_nil, fun _ _ member =>
      absurd member List.not_mem_nil⟩, rfl⟩
  | cons piece rest ih =>
      obtain ⟨first, later⟩ := anchored
      let front := before ++ stems piece.gap
      have frontLength : front.length = before.length + piece.gap.length := by
        rw [List.length_append, stems, List.length_map]
      let further := front ++ stems piece.oldSide
      have furtherLength : further.length =
          before.length + piece.gap.length + piece.oldSide.length := by
        rw [List.length_append, frontLength, stems, List.length_map]
      have old : before ++ stems (versionLines DiffPiece.oldSide (piece :: rest) tail) =
          further ++ stems (versionLines DiffPiece.oldSide rest tail) := by
        rw [stems_versionLines]
        simp [further, front]
      have hunks : readHunks before.length (piece :: rest) =
          ((headerHunk front.length piece).extend (readLines piece)).close ::
            readHunks further.length rest := by
        rw [readHunks, frontLength, furtherLength]
      rw [← furtherLength] at later
      rw [← frontLength] at first
      obtain ⟨shown, edited⟩ := ih later
      simp only [old, hunks]
      constructor
      · rw [List.forall_mem_cons, List.forall_mem_cons, shown, List.append_assoc,
          (range_at first (readLines piece) _).1]
        rfl
      · rw [List.foldr_cons, edited, List.append_assoc, (range_at first (readLines piece) _).2]
        simp [editedLines, front, replacement, OpenHunk.extend, OpenHunk.close, headerHunk]

theorem reproduces_iff
    {env : HeavyEnv}
    {diff : GitDiff}
    (unforged : diff.Unforged env) :
    Reproduces env diff ↔ env.DiffReadable (String.ofList diff.text) ∧
      ((diff.Named ∧ (∀ piece ∈ diff.pieces, Shown piece) ∧
          editedLines diff.pieces diff.tail = diff.newLines) ∨
        (¬ diff.Named ∧ diff.oldLines = diff.newLines)) := by
  constructor
  · rintro ⟨files, read, shown, edited⟩
    have numbers := env.parseUnifiedDiff_ok_iff.mp ⟨files, read⟩
    obtain ⟨again, same, named, unnamed⟩ := parse_unforged unforged numbers
    obtain rfl : files = again := Except.ok.inj (read.symm.trans same)
    refine ⟨numbers, ?_⟩
    obtain ⟨shows, edits⟩ := @readHunks_edit diff.pieces diff.tail [] diff.anchored
    by_cases hasName : diff.Named
    · rw [named hasName] at shown edited
      exact .inl ⟨hasName, shows.mp shown, edits.symm.trans edited⟩
    · rw [unnamed hasName] at edited
      exact .inr ⟨hasName, edited⟩
  · rintro ⟨numbers, cases⟩
    obtain ⟨files, read, named, unnamed⟩ := parse_unforged unforged numbers
    obtain ⟨shows, edits⟩ := @readHunks_edit diff.pieces diff.tail [] diff.anchored
    refine ⟨files, read, ?_⟩
    rcases cases with ⟨hasName, shown, edited⟩ | ⟨noName, same⟩
    · rw [named hasName]
      exact ⟨shows.mpr shown, edits.trans edited⟩
    · rw [unnamed noName]
      exact ⟨fun hunk member => absurd member List.not_mem_nil, same⟩

/-! ## When the edit is reproduced -/

/-- A line with a line break of Python's inside. -/
def broken (line : List Char) : Bool :=
  !unbroken line

theorem codeLines_joinLines
    (whole : ∀ line ∈ lines, '\n' ∉ line)
    (filled : lines ≠ [[]]) :
    codeLines (joinLines lines) = lines := by
  rw [codeLines, joinLines, String.toList_ofList]
  by_cases none : lines = []
  · rw [none]
    rfl
  · have split := List.splitOn_intercalate '\n' whole none
    rw [if_neg, split]
    intro empty
    rw [empty] at split
    exact filled split.symm

theorem newline_not_mem_of_unbroken
    {line : List Char}
    (whole : unbroken line = true) :
    '\n' ∉ line := by
  intro member
  have inside := List.all_eq_true.mp whole '\n' member
  exact absurd inside (by decide)

theorem newline_not_mem_stems
    {lines : List FileLine} :
    ∀ line ∈ stems lines, '\n' ∉ line := by
  intro line member
  obtain ⟨fileLine, _, rfl⟩ := List.mem_map.mp member
  intro inside
  rw [FileLine.stem] at inside
  split at inside
  · exact fileLine.whole (List.mem_of_mem_dropLast inside)
  · exact fileLine.whole inside

theorem unbroken_textsOf
    (piece : DiffPiece) :
    ∀ line ∈ textsOf signs (readLines piece), unbroken line = true := by
  intro text member
  obtain ⟨line, inside, shown⟩ := List.mem_filterMap.mp member
  have whole : unbroken line = true := by
    rcases List.mem_append.mp inside with heading | body
    · exact unbroken_of_mem_splitLinesFrom rfl (List.mem_of_mem_tail heading)
    · exact unbroken_of_mem_splitLinesFrom rfl body
  cases line with
  | nil => cases shown
  | cons sign rest =>
      simp only [Option.ite_none_right_eq_some, Option.some.injEq] at shown
      rw [unbroken, List.all_cons, Bool.and_eq_true] at whole
      rw [← shown.2]
      exact whole.2

theorem stems_plain_iff
    {lines : List FileLine} :
    (stems lines).countP broken = 0 ↔ ∀ line ∈ lines, line.Plain := by
  simp [List.countP_eq_zero, stems, broken, FileLine.Plain]

theorem mem_joinLines
    {c : Char}
    (notNewline : c ≠ '\n') :
    c ∈ (joinLines lines).toList ↔ ∃ line ∈ lines, c ∈ line := by
  rw [joinLines, String.toList_ofList]
  induction lines with
  | nil => simp
  | cons line rest ih =>
      cases rest with
      | nil => simp
      | cons next rest =>
          rw [List.intercalate_cons_cons, List.mem_append, List.mem_append, ih]
          simp [notNewline]

theorem oldSide_plain
    (shown : Shown piece) :
    ∀ line ∈ piece.oldSide, line.Plain := by
  intro line member
  rw [FileLine.Plain, unbroken, List.all_eq_true]
  intro c inside
  have notNewline : c ≠ '\n' := fun same =>
    newline_not_mem_stems _ (List.mem_map_of_mem member) (same ▸ inside)
  have joined := (mem_joinLines notNewline).mpr ⟨_, List.mem_map_of_mem member, inside⟩
  rw [← stems, ← shown, mem_joinLines notNewline] at joined
  obtain ⟨text, read, here⟩ := joined
  exact List.all_eq_true.mp (unbroken_textsOf _ piece text read) c here

theorem replacement_unbroken
    (piece : DiffPiece) :
    (replacement piece).countP broken = 0 := by
  rw [List.countP_eq_zero]
  intro line member
  by_cases blank : textsOf ['+', ' '] (readLines piece) = [[]]
  · rw [replacement, blank] at member
    cases member
  · rw [replacement, codeLines_joinLines (fun line member =>
      newline_not_mem_of_unbroken (unbroken_textsOf _ piece line member)) blank] at member
    simp [broken, unbroken_textsOf _ piece line member]

theorem measure_edited
    {measure : List (List Char) → Nat}
    (additive : ∀ first second, measure (first ++ second) = measure first + measure second)
    {missing added : DiffPiece → Nat}
    {pieces : List DiffPiece}
    (each : ∀ piece ∈ pieces, measure (replacement piece) + missing piece =
      measure (stems piece.newSide) + added piece)
    (tail : List FileLine) :
    measure (editedLines pieces tail) + (pieces.map missing).sum =
      measure (stems (versionLines DiffPiece.newSide pieces tail)) + (pieces.map added).sum := by
  induction pieces with
  | nil => rfl
  | cons piece rest ih =>
      rw [List.forall_mem_cons] at each
      have here := each.1
      have further := ih each.2
      have edited : editedLines (piece :: rest) tail =
          stems piece.gap ++ (replacement piece ++ editedLines rest tail) := by
        simp [editedLines]
      rw [edited, stems_versionLines, additive, additive, additive, additive, List.map_cons,
        List.map_cons, List.sum_cons, List.sum_cons]
      omega

theorem newSide_plain
    {diff : GitDiff}
    (edited : editedLines diff.pieces diff.tail = diff.newLines) :
    ∀ piece ∈ diff.pieces, ∀ line ∈ piece.newSide, line.Plain := by
  have measured := @measure_edited (List.countP broken) (fun _ _ => List.countP_append)
    (fun piece => (stems piece.newSide).countP broken) (fun _ => 0) diff.pieces
    (fun piece _ => by rw [replacement_unbroken, Nat.zero_add, Nat.add_zero]) diff.tail
  rw [edited, GitDiff.newLines] at measured
  have none : (diff.pieces.map fun piece => (stems piece.newSide).countP broken).sum = 0 := by
    simpa using measured
  intro piece member
  exact stems_plain_iff.mp
    (List.sum_eq_zero_iff_forall_eq_nat.mp none _ (List.mem_map_of_mem member))

theorem body_plain
    (old : ∀ line ∈ piece.oldSide, line.Plain)
    (new : ∀ line ∈ piece.newSide, line.Plain) :
    ∀ entry ∈ piece.body, entry.2.Plain := by
  intro entry member
  by_cases added : entry.1 = .addition
  · exact new _ (List.mem_map_of_mem (List.mem_filter.mpr ⟨member, by simp [added]⟩))
  · exact old _ (List.mem_map_of_mem (List.mem_filter.mpr ⟨member, by simp [added]⟩))

theorem textsOf_signed
    (sign : Char)
    (text : List Char) :
    textsOf signs [sign :: text] = if sign ∈ signs then [text] else [] := by
  by_cases shown : sign ∈ signs <;> simp [textsOf, shown]

theorem textsOf_entryLines
    (entry : DiffLineKind × FileLine) :
    textsOf ['-', ' '] (entryLines entry) = (if entry.1 ≠ .addition then [entry.2.stem] else []) ∧
      textsOf ['+', ' '] (entryLines entry) =
        if entry.1 ≠ .deletion then [entry.2.stem] else [] := by
  have marker : ∀ signs : List Char, '\\' ∉ signs →
      textsOf signs (if entry.2.ended then [] else [noNewlineMarker]) = [] := by
    intro signs other
    split
    · rfl
    · exact (textsOf_signed signs '\\' " No newline at end of file".toList).trans (if_neg other)
  have shape : entryLines entry = [entry.1.sign :: entry.2.stem] ++
      if entry.2.ended then [] else [noNewlineMarker] := rfl
  rw [shape, textsOf_append, textsOf_append, marker _ (by decide), marker _ (by decide),
    textsOf_signed, textsOf_signed]
  cases entry.1 <;> exact ⟨rfl, rfl⟩

theorem textsOf_readLines
    (plain : ∀ entry ∈ piece.body, entry.2.Plain) :
    textsOf ['-', ' '] (readLines piece) =
        textsOf ['-', ' '] (cutOff piece) ++ stems piece.oldSide ∧
      textsOf ['+', ' '] (readLines piece) =
        textsOf ['+', ' '] (cutOff piece) ++ stems piece.newSide := by
  have entries : ∀ body : List (DiffLineKind × FileLine),
      textsOf ['-', ' '] (body.flatMap entryLines) =
          stems ((body.filter (·.1 ≠ .addition)).map (·.2)) ∧
        textsOf ['+', ' '] (body.flatMap entryLines) =
          stems ((body.filter (·.1 ≠ .deletion)).map (·.2)) := by
    intro body
    induction body with
    | nil => exact ⟨rfl, rfl⟩
    | cons entry rest ih =>
        rw [List.flatMap_cons, textsOf_append, textsOf_append, ih.1,
          ih.2, (textsOf_entryLines entry).1, (textsOf_entryLines entry).2]
        cases kind : entry.1 <;> simp [stems, kind]
  have lines : splitLinesFrom [] (piece.body.flatMap entryText) =
      piece.body.flatMap entryLines := by
    have read := splitLinesFrom_body plain []
    rwa [List.append_nil, splitLinesFrom, List.append_nil] at read
  rw [readLines, textsOf_append, textsOf_append, lines, (entries piece.body).1,
    (entries piece.body).2]
  exact ⟨rfl, rfl⟩

theorem textsOf_eq_nil_iff
    {signs : List Char} :
    textsOf signs lines = [] ↔ ∀ line ∈ lines, ∀ sign ∈ signs, line.head? ≠ some sign := by
  rw [textsOf, List.filterMap_eq_nil_iff]
  refine forall₂_congr fun line _ => ?_
  cases line with
  | nil => simp
  | cons c text =>
      simp only [ite_eq_right_iff, reduceCtorEq, imp_false, List.head?_cons, ne_eq,
        Option.some.injEq]
      exact ⟨fun absent sign known same => absent (same ▸ known), fun other known =>
        other c known rfl⟩

theorem unsigned_iff :
    (∀ line ∈ cutOff piece, line.head? ∉ [some '-', some '+', some ' ']) ↔
      textsOf ['-', ' '] (cutOff piece) = [] ∧ textsOf ['+', ' '] (cutOff piece) = [] := by
  rw [textsOf_eq_nil_iff, textsOf_eq_nil_iff, ← forall₂_and]
  refine forall₂_congr fun line _ => ?_
  simp only [List.mem_cons, List.not_mem_nil, or_false, not_or, forall_eq_or_imp, forall_eq]
  exact ⟨fun ⟨minus, plus, blank⟩ => ⟨⟨minus, blank⟩, plus, blank⟩,
    fun ⟨⟨minus, blank⟩, plus, _⟩ => ⟨minus, plus, blank⟩⟩

theorem cutOff_eq_nil
    (bare : piece.section_ = []) :
    cutOff piece = [] := by
  rw [cutOff, bare]
  rfl

section Context

variable {diff : GitDiff} {piece : DiffPiece}

theorem long_sides
    (member : piece ∈ diff.pieces)
    (heading : piece.section_ ≠ []) :
    3 ≤ piece.oldSide.length ∧ 3 ≤ piece.newSide.length := by
  obtain ⟨front, back, shape⟩ := List.append_of_mem member
  obtain ⟨old, new, _⟩ := length_leading_le piece
  rcases (diff.context front piece back shape).1 with full | ⟨_, rfl, noGap⟩
  · exact ⟨full ▸ old, full ▸ new⟩
  · exact absurd (diff.headed piece back shape noGap) heading

theorem short_alone
    (member : piece ∈ diff.pieces)
    (short : piece.newSide.length ≤ 1) :
    diff.pieces = [piece] ∧ piece.gap = [] ∧ diff.tail = [] := by
  obtain ⟨front, back, shape⟩ := List.append_of_mem member
  obtain ⟨_, first, last⟩ := length_leading_le piece
  obtain ⟨start, stop⟩ := diff.context front piece back shape
  rcases start with full | ⟨_, rfl, noGap⟩
  · omega
  rcases stop with full | ⟨_, rfl, noTail⟩
  · omega
  exact ⟨shape, noGap, noTail⟩

theorem newLines_blank_iff :
    (diff.pieces ≠ [] ∧ diff.newLines = [[]]) ↔
      ∃ piece ∈ diff.pieces, stems piece.newSide = [[]] := by
  have sizes : ∀ piece : DiffPiece, (stems piece.newSide).length = piece.newSide.length :=
    fun piece => List.length_map _
  constructor
  · rintro ⟨filled, blank⟩
    obtain ⟨piece, rest, shape⟩ := List.exists_cons_of_ne_nil filled
    have member : piece ∈ diff.pieces := by
      rw [shape]
      exact List.mem_cons_self
    by_cases empty : piece.newSide = []
    · obtain ⟨alone, noGap, noTail⟩ := short_alone member (by rw [empty]; exact Nat.zero_le 1)
      rw [GitDiff.newLines, alone, noTail, stems_versionLines, noGap, empty] at blank
      cases blank
    · obtain ⟨line, more, lines⟩ := List.exists_cons_of_ne_nil empty
      rw [GitDiff.newLines, shape, stems_versionLines, lines] at blank
      have size := congrArg List.length blank
      simp only [stems, List.length_append, List.length_map, List.length_cons,
        List.length_nil] at size
      have noGap : piece.gap = [] := List.length_eq_zero_iff.mp (by omega)
      have noMore : more = [] := List.length_eq_zero_iff.mp (by omega)
      refine ⟨piece, member, ?_⟩
      rw [noGap, noMore] at blank
      rw [lines, noMore]
      exact congrArg (List.take 1) blank
  · rintro ⟨piece, member, blank⟩
    have size := congrArg List.length blank
    rw [sizes] at size
    obtain ⟨alone, noGap, noTail⟩ := short_alone member (Nat.le_of_eq size)
    refine ⟨List.ne_nil_of_mem member, ?_⟩
    rw [GitDiff.newLines, alone, noTail, stems_versionLines, blank, noGap]
    rfl

end Context

theorem edited_iff :
    ((∀ piece ∈ diff.pieces, Shown piece) ∧
        editedLines diff.pieces diff.tail = diff.newLines) ↔
      diff.Unsplit ∧ diff.NotBlank := by
  have notBlank : diff.NotBlank ↔ ∀ piece ∈ diff.pieces, stems piece.newSide ≠ [[]] := by
    have same := not_congr (@newLines_blank_iff diff)
    push Not at same
    exact same
  rw [notBlank]
  constructor
  · rintro ⟨shown, edited⟩
    have plain : ∀ piece ∈ diff.pieces, ∀ entry ∈ piece.body, entry.2.Plain :=
      fun piece member => body_plain (oldSide_plain (shown piece member))
        (newSide_plain edited piece member)
    -- A blank new side leaves no line in the edited file.
    have filled : ∀ piece ∈ diff.pieces, stems piece.newSide ≠ [[]] := by
      intro piece member blank
      have size := congrArg List.length blank
      rw [stems, List.length_map] at size
      obtain ⟨alone, noGap, noTail⟩ := short_alone member (Nat.le_of_eq size)
      have bare := cutOff_eq_nil (diff.headed piece [] alone noGap)
      have written : replacement piece = [] := by
        rw [replacement, (textsOf_readLines (plain piece member)).2, bare, blank]
        rfl
      rw [GitDiff.newLines, alone, noTail, stems_versionLines, blank] at edited
      simp [editedLines, noGap, written, stems] at edited
    have long : ∀ piece ∈ diff.pieces, cutOff piece ≠ [] →
        3 ≤ piece.oldSide.length ∧ 3 ≤ piece.newSide.length :=
      fun piece member cut => long_sides member fun bare => cut (cutOff_eq_nil bare)
    have notOne : ∀ (front : List (List Char)) (lines : List FileLine), 3 ≤ lines.length →
        front ++ stems lines ≠ [[]] := by
      intro front lines three one
      have size := congrArg List.length one
      rw [List.length_append, stems, List.length_map, List.length_singleton] at size
      omega
    have oldUnsigned : ∀ piece ∈ diff.pieces, textsOf ['-', ' '] (cutOff piece) = [] := by
      intro piece member
      by_cases cut : cutOff piece = []
      · rw [cut]
        rfl
      have three := (long piece member cut).1
      have same := shown piece member
      rw [Shown] at same
      have read := congrArg codeLines same
      rw [codeLines_joinLines (fun line inside => newline_not_mem_of_unbroken
          (unbroken_textsOf _ piece line inside)), codeLines_joinLines newline_not_mem_stems
          (notOne [] _ three), (textsOf_readLines (plain piece member)).1] at read
      · exact List.append_left_eq_self.mp read
      · rw [(textsOf_readLines (plain piece member)).1]
        exact notOne _ _ three
    have written : ∀ piece ∈ diff.pieces,
        replacement piece = textsOf ['+', ' '] (cutOff piece) ++ stems piece.newSide := by
      intro piece member
      rw [replacement, codeLines_joinLines (fun line inside => newline_not_mem_of_unbroken
          (unbroken_textsOf _ piece line inside)), (textsOf_readLines (plain piece member)).2]
      rw [(textsOf_readLines (plain piece member)).2]
      by_cases cut : cutOff piece = []
      · rw [cut]
        exact filled piece member
      · exact notOne _ _ (long piece member cut).2
    have measured := @measure_edited List.length (fun _ _ => List.length_append)
      (fun _ => 0) (fun piece => (textsOf ['+', ' '] (cutOff piece)).length) diff.pieces
      (fun piece member => by rw [written piece member, List.length_append]; omega) diff.tail
    rw [edited, GitDiff.newLines] at measured
    have none : (diff.pieces.map fun piece =>
        (textsOf ['+', ' '] (cutOff piece)).length).sum = 0 := by
      simpa using measured
    refine ⟨fun piece member => ⟨plain piece member, unsigned_iff.mpr
      ⟨oldUnsigned piece member, ?_⟩⟩, filled⟩
    exact List.length_eq_zero_iff.mp
      (List.sum_eq_zero_iff_forall_eq_nat.mp none _ (List.mem_map_of_mem member))
  · rintro ⟨unsplit, filled⟩
    have read : ∀ piece ∈ diff.pieces,
        textsOf ['-', ' '] (readLines piece) = stems piece.oldSide ∧
          textsOf ['+', ' '] (readLines piece) = stems piece.newSide := by
      intro piece member
      obtain ⟨plain, unsigned⟩ := unsplit piece member
      obtain ⟨old, new⟩ := unsigned_iff.mp unsigned
      have texts := textsOf_readLines plain
      rwa [old, new] at texts
    have written : ∀ piece ∈ diff.pieces, replacement piece = stems piece.newSide := by
      intro piece member
      rw [replacement, (read piece member).2,
        codeLines_joinLines newline_not_mem_stems (filled piece member)]
    refine ⟨fun piece member => congrArg joinLines (read piece member).1, ?_⟩
    simp only [editedLines, GitDiff.newLines, versionLines, stems, List.map_append,
      List.map_flatMap]
    refine congrArg (· ++ diff.tail.map FileLine.stem) (List.flatMap_congr fun piece member => ?_)
    rw [written piece member]
    rfl

/-- The hunks read from a diff without forged headers reproduce its edit exactly when its name is
read, no line is split and the new version is not blank. -/
theorem heavy_repair_hunks_iff
    {env : HeavyEnv}
    {diff : GitDiff}
    (unforged : diff.Unforged env) :
    Reproduces env diff ↔ env.DiffReadable (String.ofList diff.text) ∧
      ((diff.Named ∧ diff.Unsplit ∧ diff.NotBlank) ∨
        (¬ diff.Named ∧ diff.oldLines = diff.newLines)) := by
  rw [reproduces_iff unforged, edited_iff]

namespace HunkSample

/-- Only ASCII digits are read. -/
def env : HeavyEnv where
  digits := ⟨fun _ => none⟩
  lower := id
  repr := fun _ => ""

def lineOf (text : String) (whole : '\n' ∉ text.toList := by decide) : FileLine :=
  ⟨text.toList, whole, true⟩

/-- The only line of a file is replaced. -/
def replaced (line : FileLine) : DiffPiece where
  gap := []
  body := [(.deletion, lineOf "x"), (.addition, line)]
  changes := ⟨_, List.mem_cons_self, by decide⟩
  wholeSection := noSection

theorem wellEnded
    {line : FileLine}
    (ended : line.ended = true) :
    WellEnded [line] := by
  intro front other back shape notEnded
  have inside : other ∈ [line] := by
    rw [shape]
    exact List.mem_append_right _ List.mem_cons_self
  rw [List.mem_singleton.mp inside, ended] at notEnded
  cases notEnded

def change (line : FileLine) (ended : line.ended = true := by rfl) : GitDiff where
  name := "f"
  header := "diff --git a/f b/f".toList
  wholeHeader := by decide
  spelled := .inl (by decide)
  extended := []
  wholeExtended := by decide
  pieces := [replaced line]
  tail := []
  oldEnded := wellEnded rfl
  newEnded := wellEnded ended
  context := by
    intro front piece back shape
    have alone : front = [] ∧ piece = replaced line ∧ back = [] := by
      cases front with
      | nil => exact ⟨rfl, (List.cons.inj shape).1.symm, (List.cons.inj shape).2.symm⟩
      | cons first rest =>
          have size := congrArg List.length shape
          simp at size
    obtain ⟨rfl, rfl, rfl⟩ := alone
    exact ⟨.inr ⟨Nat.zero_lt_succ 2, rfl, rfl⟩, .inr ⟨Nat.zero_lt_succ 2, rfl, rfl⟩⟩
  headed := fun piece back shape _ => by
    rw [← (List.cons.inj shape).1]
    rfl

end HunkSample

open HunkSample in
theorem plain_change_is_reproduced :
    (change (lineOf "y")).Unforged env ∧ Reproduces env (change (lineOf "y")) := by
  have unforged : (change (lineOf "y")).Unforged env := by
    unfold GitDiff.Unforged Unheaded
    decide
  refine ⟨unforged, (heavy_repair_hunks_iff unforged).mpr ⟨?_, .inl ⟨?_, ?_, ?_⟩⟩⟩
  · exact env.parseUnifiedDiff_ok_iff.mp ⟨_, rfl⟩
  · exact (rfl : matchDiffGit "diff --git a/f b/f".toList = some ['f'])
  · unfold GitDiff.Unsplit FileLine.Plain
    decide
  · intro _
    decide

open HunkSample in
/-- A line with a form feed is cut off, and a single blank line is left out. -/
theorem form_feed_is_cut_off :
    ¬ Reproduces env (change (lineOf "a\x0cb")) ∧ ¬ Reproduces env (change (lineOf "")) := by
  constructor
  · rintro ⟨files, read, _, edited⟩
    cases read
    revert edited
    decide
  · rintro ⟨files, read, _, edited⟩
    cases read
    revert edited
    decide

end MrAgent.HeavyRepair
