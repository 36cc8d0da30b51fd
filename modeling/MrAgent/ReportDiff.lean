import MrAgent.FormatReport
import MrAgent.UnifiedPatch

namespace MrAgent

/-!
# Unified diffs of a file

A diff as a formatter writes it: the lines of two versions of a file, each with
its end, and the hunks between unchanged lines. Reading its text with
`parseUnifiedDiff` gives the hunks back.
-/

/-- A line of a file; only its line feed is left out of its text. -/
structure FileLine where
  text : List Char
  whole : '\n' ∉ text
  ended : Bool := true

namespace FileLine

/-- The line with its end. -/
def fullText (line : FileLine) : List Char :=
  line.text ++ if line.ended then lineEnd false else []

/-- The line without a carriage return at its end. -/
def stem (line : FileLine) : List Char :=
  if line.text.getLast? = some '\r' then line.text.dropLast else line.text

/-- `str.splitlines` reads the line as one line. -/
def Plain (line : FileLine) : Prop :=
  unbroken line.stem = true

end FileLine

/-- The text of a file. -/
def fileText (lines : List FileLine) : List Char :=
  lines.flatMap FileLine.fullText

/-- Only the last line may lack its end, and then it is not empty. -/
def WellEnded (lines : List FileLine) : Prop :=
  ∀ front line back, lines = front ++ line :: back → line.ended = false →
    back = [] ∧ line.text ≠ []

/-- A hunk and the unchanged lines before it. -/
structure DiffPiece where
  gap : List FileLine
  body : List (DiffLineKind × FileLine)
  changes : ∃ entry ∈ body, entry.1 ≠ .context
  leaveOut1 : Bool := false
  leaveOut2 : Bool := false
  section_ : List Char := []
  wholeSection : '\n' ∉ section_ := by decide

theorem noSection : '\n' ∉ ([] : List Char) :=
  List.not_mem_nil

namespace DiffPiece

def oldSide (piece : DiffPiece) : List FileLine :=
  (piece.body.filter (·.1 ≠ .addition)).map (·.2)

def newSide (piece : DiffPiece) : List FileLine :=
  (piece.body.filter (·.1 ≠ .deletion)).map (·.2)

/-- `str.splitlines` reads the header and each line of the hunk as one line. -/
def Plain (piece : DiffPiece) : Prop :=
  unbroken piece.section_ = true ∧ ∀ entry ∈ piece.body, entry.2.Plain

/-- The start of one side: the first line of the hunk, or the line before it when it has none. -/
def startOf (before size : Nat) : Nat :=
  if size = 0 then before else before + 1

/-- The header of the hunk behind some lines of both versions. -/
def header (piece : DiffPiece) (before1 before2 : Nat) : List Char :=
  "@@ -".toList ++ (rangeText (startOf before1 piece.oldSide.length) piece.oldSide.length
      piece.leaveOut1 ++
    (" +".toList ++ (rangeText (startOf before2 piece.newSide.length) piece.newSide.length
        piece.leaveOut2 ++
      (" @@".toList ++ piece.section_))))

end DiffPiece

/-- `\ No newline at end of file` -/
def noNewlineMarker : List Char :=
  "\\ No newline at end of file".toList

/-- A line of a hunk, with the marker when its end is missing. -/
def entryText (entry : DiffLineKind × FileLine) : List Char :=
  (entry.1.sign :: entry.2.text) ++ (lineEnd false ++
    if entry.2.ended then [] else noNewlineMarker ++ lineEnd false)

/-- The hunks of a diff, behind some lines of both versions. -/
def piecesText : Nat → Nat → List DiffPiece → List Char
  | _, _, [] => []
  | before1, before2, piece :: rest =>
    let here1 := before1 + piece.gap.length
    let here2 := before2 + piece.gap.length
    piece.header here1 here2 ++ (lineEnd false ++ (piece.body.flatMap entryText ++
      piecesText (here1 + piece.oldSide.length) (here2 + piece.newSide.length) rest))

/-- The lines of one version: the unchanged lines and that side of each hunk. -/
def versionLines
    (side : DiffPiece → List FileLine)
    (pieces : List DiffPiece)
    (tail : List FileLine) : List FileLine :=
  pieces.flatMap (fun piece => piece.gap ++ side piece) ++ tail

/-- A diff between two versions of a file. -/
structure FileDiff where
  oldName : List Char
  newName : List Char
  wholeNames : unbroken oldName = true ∧ unbroken newName = true
  named : extractPath newName ≠ [] ∧ extractPath newName ≠ "/dev/null".toList
  pieces : List DiffPiece
  filled : pieces ≠ []
  tail : List FileLine
  oldEnded : WellEnded (versionLines DiffPiece.oldSide pieces tail)
  newEnded : WellEnded (versionLines DiffPiece.newSide pieces tail)

namespace FileDiff

def oldLines (diff : FileDiff) : List FileLine :=
  versionLines DiffPiece.oldSide diff.pieces diff.tail

def newLines (diff : FileDiff) : List FileLine :=
  versionLines DiffPiece.newSide diff.pieces diff.tail

/-- The text of the diff. -/
def text (diff : FileDiff) : List Char :=
  ("--- ".toList ++ diff.oldName) ++ (lineEnd false ++ (("+++ ".toList ++ diff.newName) ++
    (lineEnd false ++ piecesText 0 0 diff.pieces)))

end FileDiff

/-! ## The lines of the text -/

/-- A line of a hunk, split. -/
def entryLines (entry : DiffLineKind × FileLine) : List (List Char) :=
  (entry.1.sign :: entry.2.stem) :: if entry.2.ended then [] else [noNewlineMarker]

def piecesLines : Nat → Nat → List DiffPiece → List (List Char)
  | _, _, [] => []
  | before1, before2, piece :: rest =>
    let here1 := before1 + piece.gap.length
    let here2 := before2 + piece.gap.length
    piece.header here1 here2 :: (piece.body.flatMap entryLines ++
      piecesLines (here1 + piece.oldSide.length) (here2 + piece.newSide.length) rest)

theorem unbroken_append
    (first second : List Char) :
    unbroken (first ++ second) = (unbroken first && unbroken second) :=
  List.all_append

theorem unbroken_digits
    (number : Nat) :
    unbroken (Nat.toDigits 10 number) = true := by
  have breaks : ∀ c ∈ ['\n', '\r', Char.ofNat 11, Char.ofNat 12, Char.ofNat 28, Char.ofNat 29,
      Char.ofNat 30, Char.ofNat 133, Char.ofNat 8232, Char.ofNat 8233], c.isDigit = false := by
    decide
  rw [unbroken, List.all_eq_true]
  intro c member
  have digit := Nat.isDigit_of_mem_toDigits (by decide) (by decide) member
  rw [Bool.not_eq_true', isLineBreak, decide_eq_false_iff_not]
  intro broken
  rw [breaks c broken] at digit
  cases digit

theorem unbroken_rangeText
    (start size : Nat)
    (leaveOut : Bool) :
    unbroken (rangeText start size leaveOut) = true := by
  rw [rangeText, unbroken_append, unbroken_digits]
  split
  · rfl
  · rw [unbroken_cons, unbroken_digits]
    rfl

theorem DiffPiece.unbroken_header
    {piece : DiffPiece}
    (plain : unbroken piece.section_ = true)
    (before1 before2 : Nat) :
    unbroken (piece.header before1 before2) = true := by
  rw [header]
  simp only [unbroken_append, unbroken_rangeText, plain, Bool.and_true, Bool.true_and]
  decide

theorem splitLinesFrom_lf
    {line : List Char}
    (whole : unbroken line = true)
    (rest : List Char) :
    splitLinesFrom [] (line ++ (lineEnd false ++ rest)) = line :: splitLinesFrom [] rest :=
  splitLinesFrom_lineEnd whole false rest

namespace FileLine

variable {line : FileLine}

theorem text_eq_stem
    (line : FileLine) :
    ∃ withReturn : Bool, line.text = line.stem ++ if withReturn then ['\r'] else [] := by
  by_cases returns : line.text.getLast? = some '\r'
  · refine ⟨true, ?_⟩
    rw [stem, if_pos returns, if_pos rfl]
    exact (List.dropLast_append_getLast? _ returns).symm
  · refine ⟨false, ?_⟩
    rw [stem, if_neg returns]
    exact (List.append_nil _).symm

theorem stem_of_unbroken
    (whole : unbroken line.text = true) :
    line.stem = line.text := by
  refine if_neg fun returns => ?_
  have inside := List.all_eq_true.mp whole '\r' (List.mem_of_getLast? returns)
  exact absurd inside (by decide)

theorem plain_of_unbroken
    (whole : unbroken line.text = true) :
    line.Plain := by
  rw [Plain, stem_of_unbroken whole]
  exact whole

theorem splitLinesFrom_text
    (plain : line.Plain)
    {start : List Char}
    (whole : unbroken start = true)
    (rest : List Char) :
    splitLinesFrom [] ((start ++ line.text) ++ (lineEnd false ++ rest)) =
      (start ++ line.stem) :: splitLinesFrom [] rest := by
  have wholeLine : unbroken (start ++ line.stem) = true := by
    rw [unbroken_append, whole, plain]
    rfl
  obtain ⟨withReturn, same⟩ := line.text_eq_stem
  have joined : (start ++ line.text) ++ (lineEnd false ++ rest) =
      (start ++ line.stem) ++ (lineEnd withReturn ++ rest) := by
    rw [same]
    cases withReturn <;> simp [lineEnd]
  rw [joined, splitLinesFrom_lineEnd wholeLine]

end FileLine

theorem unbroken_sign
    (kind : DiffLineKind) :
    unbroken [kind.sign] = true := by
  cases kind <;> decide

theorem splitLinesFrom_entryText
    {entry : DiffLineKind × FileLine}
    (plain : entry.2.Plain)
    (rest : List Char) :
    splitLinesFrom [] (entryText entry ++ rest) = entryLines entry ++ splitLinesFrom [] rest := by
  have first := FileLine.splitLinesFrom_text plain (unbroken_sign entry.1)
  rw [entryText, entryLines, List.append_assoc, List.append_assoc]
  refine (first _).trans ?_
  cases entry.2.ended with
  | true => rfl
  | false =>
      have marker : unbroken noNewlineMarker = true := by decide
      have second := splitLinesFrom_lf marker rest
      simpa using second

theorem splitLinesFrom_body
    {body : List (DiffLineKind × FileLine)}
    (plain : ∀ entry ∈ body, entry.2.Plain)
    (rest : List Char) :
    splitLinesFrom [] (body.flatMap entryText ++ rest) =
      body.flatMap entryLines ++ splitLinesFrom [] rest := by
  induction body with
  | nil => rfl
  | cons entry body ih =>
      obtain ⟨here, further⟩ := List.forall_mem_cons.mp plain
      rw [List.flatMap_cons, List.flatMap_cons, List.append_assoc, splitLinesFrom_entryText here,
        ih further, List.append_assoc]

theorem splitLinesFrom_pieces
    {pieces : List DiffPiece}
    (plain : ∀ piece ∈ pieces, piece.Plain)
    (before1 before2 : Nat) :
    splitLinesFrom [] (piecesText before1 before2 pieces) = piecesLines before1 before2 pieces := by
  induction pieces generalizing before1 before2 with
  | nil => rfl
  | cons piece rest ih =>
      obtain ⟨here, further⟩ := List.forall_mem_cons.mp plain
      rw [piecesText, piecesLines, splitLinesFrom_lf (DiffPiece.unbroken_header here.1 _ _),
        splitLinesFrom_body here.2, ih further]

theorem FileDiff.splitLines_text
    {diff : FileDiff}
    (plain : ∀ piece ∈ diff.pieces, piece.Plain) :
    splitLines (String.ofList diff.text) =
      ("--- ".toList ++ diff.oldName) :: ("+++ ".toList ++ diff.newName) ::
        piecesLines 0 0 diff.pieces := by
  have old : unbroken ("--- ".toList ++ diff.oldName) = true := by
    rw [unbroken_append, diff.wholeNames.1]
    decide
  have new : unbroken ("+++ ".toList ++ diff.newName) = true := by
    rw [unbroken_append, diff.wholeNames.2]
    decide
  rw [splitLines, String.toList_ofList, text, splitLinesFrom_lf old, splitLinesFrom_lf new,
    splitLinesFrom_pieces plain]

/-! ## Reading the hunks back -/

namespace DigitEnv

variable (env : DigitEnv)

theorem read_rangeText
    (start size : Nat)
    (leaveOut : Bool)
    (rest : List Char) :
    ∃ behind stated,
      env.takeDigits (rangeText start size leaveOut ++ ' ' :: rest) =
          some (Nat.toDigits 10 start, behind) ∧
        env.takeSize behind = (stated, ' ' :: rest) ∧
        (stated.map env.number).getD 1 = size := by
  rw [rangeText]
  by_cases short : leaveOut = true ∧ size = 1
  · rw [if_pos short, List.append_nil]
    exact ⟨' ' :: rest, none, env.takeDigits_toDigits start rfl rest, rfl, short.2.symm⟩
  · rw [if_neg short, List.append_assoc, List.cons_append]
    refine ⟨',' :: (Nat.toDigits 10 size ++ ' ' :: rest), some (Nat.toDigits 10 size),
      env.takeDigits_toDigits start rfl _, ?_, ?_⟩
    · rw [DigitEnv.takeSize, env.takeDigits_toDigits size rfl rest]
    · exact env.number_toDigits size

theorem matchHeader_piece
    (piece : DiffPiece)
    (before1 before2 : Nat) :
    ∃ found, env.matchHeader (piece.header before1 before2) = some found ∧
      env.number found.start1 = DiffPiece.startOf before1 piece.oldSide.length ∧
      (found.size1.map env.number).getD 1 = piece.oldSide.length ∧
      (found.size2.map env.number).getD 1 = piece.newSide.length ∧
      env.number found.start2 = DiffPiece.startOf before2 piece.newSide.length := by
  obtain ⟨behind1, stated1, digits1, size1, value1⟩ := env.read_rangeText
    (DiffPiece.startOf before1 piece.oldSide.length) piece.oldSide.length piece.leaveOut1
    ('+' :: (rangeText (DiffPiece.startOf before2 piece.newSide.length) piece.newSide.length
      piece.leaveOut2 ++ (" @@".toList ++ piece.section_)))
  obtain ⟨behind2, stated2, digits2, size2, value2⟩ := env.read_rangeText
    (DiffPiece.startOf before2 piece.newSide.length) piece.newSide.length piece.leaveOut2
    ("@@".toList ++ piece.section_)
  refine ⟨⟨Nat.toDigits 10 (DiffPiece.startOf before1 piece.oldSide.length), stated1,
    Nat.toDigits 10 (DiffPiece.startOf before2 piece.newSide.length), stated2,
    ((afterStart [' '] piece.section_).getD piece.section_).takeWhile (· ≠ '\n')⟩, ?_,
    env.number_toDigits _, value1, value2, env.number_toDigits _⟩
  rw [DiffPiece.header, DigitEnv.matchHeader, afterStart_append]
  have plus : " +".toList ++ (rangeText (DiffPiece.startOf before2 piece.newSide.length)
      piece.newSide.length piece.leaveOut2 ++ (" @@".toList ++ piece.section_)) =
      ' ' :: ('+' :: (rangeText (DiffPiece.startOf before2 piece.newSide.length)
        piece.newSide.length piece.leaveOut2 ++ (" @@".toList ++ piece.section_))) := rfl
  have ats : " @@".toList ++ piece.section_ = ' ' :: ("@@".toList ++ piece.section_) := rfl
  rw [plus]
  simp only [Option.bind_eq_bind, Option.bind_some, digits1, size1]
  rw [← plus, afterStart_append]
  simp only [Option.bind_some]
  rw [ats, digits2]
  simp only [Option.bind_some, size2]
  rw [← ats, afterStart_append]
  rfl

end DigitEnv

namespace HunkReading

/-- A line of a hunk is read, with its marker. -/
def addEntry (reading : HunkReading) (entry : DiffLineKind × FileLine) : HunkReading :=
  if entry.2.ended then reading.add (entry.1, entry.2.stem)
  else (reading.add (entry.1, entry.2.stem)).noNewline

/-- How many lines of a hunk stand on one side. -/
def countOf (other : DiffLineKind) (body : List (DiffLineKind × FileLine)) : Nat :=
  (body.filter (·.1 ≠ other)).length

theorem tag_sign
    (entry : DiffLineKind × FileLine) :
    tag (entry.1.sign :: entry.2.stem) = some (entry.1, entry.2.stem) := by
  obtain ⟨kind, line⟩ := entry
  cases kind <;> rfl

theorem sign_ne_marker
    (kind : DiffLineKind) :
    kind.sign ≠ '\\' := by
  cases kind <;> decide

theorem countOf_cons
    (other : DiffLineKind)
    (entry : DiffLineKind × FileLine)
    (body : List (DiffLineKind × FileLine)) :
    countOf other (entry :: body) =
      countOf other body + if entry.1 = other then 0 else 1 := by
  rw [countOf, countOf, List.filter_cons]
  by_cases same : entry.1 = other <;> simp [same]

theorem readBody_marker
    (oldCount newCount : Nat)
    (reading : HunkReading)
    (rest : List (List Char)) :
    readBody oldCount newCount reading (noNewlineMarker :: rest) =
      readBody oldCount newCount reading.noNewline rest := by
  rw [readBody, if_pos (by rfl)]

variable {oldCount newCount : Nat}

theorem readBody_entry
    {reading : HunkReading}
    {entry : DiffLineKind × FileLine}
    (still : ¬ (oldCount ≤ reading.oldSeen ∧ newCount ≤ reading.newSeen))
    (rest : List (List Char)) :
    readBody oldCount newCount reading (entryLines entry ++ rest) =
      readBody oldCount newCount (reading.addEntry entry) rest := by
  have first : (entry.1.sign :: entry.2.stem).head? ≠ some '\\' :=
    fun same => sign_ne_marker entry.1 (Option.some.inj same)
  rw [entryLines, addEntry, List.cons_append, readBody, if_neg first, if_neg still, tag_sign]
  cases entry.2.ended with
  | true => rfl
  | false => exact readBody_marker ..

theorem seen_addEntry
    (reading : HunkReading)
    (entry : DiffLineKind × FileLine) :
    (reading.addEntry entry).oldSeen =
        reading.oldSeen + (if entry.1 = .addition then 0 else 1) ∧
      (reading.addEntry entry).newSeen =
        reading.newSeen + if entry.1 = .deletion then 0 else 1 := by
  obtain ⟨kind, line⟩ := entry
  rw [addEntry]
  cases kind <;> cases line.ended <;> exact ⟨rfl, rfl⟩

theorem readBody_lines
    {rest : List (List Char)}
    (behind : ∀ line ∈ rest.head?, line.head? ≠ some '\\')
    (body : List (DiffLineKind × FileLine))
    (reading : HunkReading)
    (oldLeft : reading.oldSeen + countOf .addition body = oldCount)
    (newLeft : reading.newSeen + countOf .deletion body = newCount) :
    readBody oldCount newCount reading (body.flatMap entryLines ++ rest) =
      (body.foldl addEntry reading, rest) := by
  induction body generalizing reading with
  | nil =>
      cases rest with
      | nil => rfl
      | cons line rest =>
          have reached : oldCount ≤ reading.oldSeen ∧ newCount ≤ reading.newSeen :=
            ⟨oldLeft.symm.le, newLeft.symm.le⟩
          rw [List.flatMap_nil, List.nil_append, readBody, if_neg (behind line rfl), if_pos reached]
          rfl
  | cons entry body ih =>
      rw [countOf_cons] at oldLeft newLeft
      have still : ¬ (oldCount ≤ reading.oldSeen ∧ newCount ≤ reading.newSeen) := by
        rintro ⟨oldOver, newOver⟩
        have addition : entry.1 = .addition := by
          by_contra other
          rw [if_neg other] at oldLeft
          omega
        rw [addition, if_neg (by decide)] at newLeft
        omega
      have seen := seen_addEntry reading entry
      rw [List.flatMap_cons, List.append_assoc, readBody_entry still, List.foldl_cons]
      refine ih _ ?_ ?_
      · rw [seen.1]
        omega
      · rw [seen.2]
        omega

theorem lines_foldl
    (body : List (DiffLineKind × FileLine))
    (reading : HunkReading) :
    (body.foldl addEntry reading).lines =
      reading.lines ++ body.map fun entry => (entry.1, entry.2.stem) := by
  induction body generalizing reading with
  | nil => exact (List.append_nil _).symm
  | cons entry body ih =>
      have here : (reading.addEntry entry).lines = reading.lines ++ [(entry.1, entry.2.stem)] := by
        rw [addEntry]
        cases entry.2.ended <;> rfl
      rw [List.foldl_cons, ih, here, List.append_assoc]
      rfl

theorem noNewline_foldl
    (body : List (DiffLineKind × FileLine))
    (reading : HunkReading) :
    (body.foldl addEntry reading).oldNoNewline =
        (reading.oldNoNewline || body.any fun entry => entry.1 ≠ .addition && !entry.2.ended) ∧
      (body.foldl addEntry reading).newNoNewline =
        (reading.newNoNewline || body.any fun entry => entry.1 ≠ .deletion && !entry.2.ended) := by
  induction body generalizing reading with
  | nil => simp
  | cons entry body ih =>
      have here : (reading.addEntry entry).oldNoNewline =
            (reading.oldNoNewline || (entry.1 ≠ .addition && !entry.2.ended)) ∧
          (reading.addEntry entry).newNoNewline =
            (reading.newNoNewline || (entry.1 ≠ .deletion && !entry.2.ended)) := by
        obtain ⟨kind, line⟩ := entry
        rw [addEntry]
        cases kind <;> cases line.ended <;> simp [add, noNewline]
      rw [List.foldl_cons, (ih _).1, (ih _).2, here.1, here.2,
        List.any_cons, List.any_cons, Bool.or_assoc, Bool.or_assoc]
      exact ⟨rfl, rfl⟩

end HunkReading

namespace DiffPiece

/-- The hunk that is read of a piece, behind some lines of the old version. -/
def hunkAt (piece : DiffPiece) (before1 : Nat) : ReportHunk :=
  (piece.body.foldl HunkReading.addEntry {}).hunk (startOf before1 piece.oldSide.length)

end DiffPiece

/-- The hunks that are read of a diff. -/
def reportHunks : Nat → List DiffPiece → List ReportHunk
  | _, [] => []
  | before1, piece :: rest =>
    let here1 := before1 + piece.gap.length
    piece.hunkAt here1 :: reportHunks (here1 + piece.oldSide.length) rest

namespace DiffPiece

variable (piece : DiffPiece)

variable (before1 : Nat)

theorem lines_hunkAt :
    (piece.hunkAt before1).lines = piece.body.map fun entry => (entry.1, entry.2.stem) :=
  (HunkReading.lines_foldl piece.body {}).trans (List.nil_append _)

theorem hunkAt_filled :
    (piece.hunkAt before1).lines ≠ [] := by
  obtain ⟨entry, member, _⟩ := piece.changes
  rw [lines_hunkAt, Ne, List.map_eq_nil_iff]
  exact List.ne_nil_of_mem member

theorem header_start
    (before1 before2 : Nat) :
    ∃ behind, piece.header before1 before2 = '@' :: '@' :: behind :=
  ⟨_, rfl⟩

theorem opensFile_header
    (before1 before2 : Nat)
    (next : List Char) :
    ReportReading.opensFile (piece.header before1 before2) next = false := by
  obtain ⟨behind, same⟩ := piece.header_start before1 before2
  rw [same, ReportReading.opensFile]
  simp

end DiffPiece

theorem piecesLines_head
    (pieces : List DiffPiece)
    (before1 before2 : Nat) :
    ∀ line ∈ (piecesLines before1 before2 pieces).head?, line.head? ≠ some '\\' := by
  cases pieces with
  | nil => exact fun _ found => by cases found
  | cons piece rest =>
      intro line found
      rw [← Option.some.inj found]
      obtain ⟨behind, same⟩ := piece.header_start (before1 + piece.gap.length)
        (before2 + piece.gap.length)
      rw [same]
      exact fun marker => absurd (Option.some.inj marker) (by decide)

theorem readFrom_pieces
    (env : DigitEnv)
    (path : List Char)
    (pieces : List DiffPiece)
    (before1 before2 fuel : Nat)
    (hunks : List ReportHunk)
    (enough : (piecesLines before1 before2 pieces).length ≤ fuel) :
    ReportReading.readFrom env fuel { files := [(path, hunks)], current := some path }
        (piecesLines before1 before2 pieces) =
      { files := [(path, hunks ++ reportHunks before1 pieces)], current := some path } := by
  induction pieces generalizing before1 before2 fuel hunks with
  | nil =>
      rw [piecesLines, reportHunks, List.append_nil]
      cases fuel <;> rfl
  | cons piece rest ih =>
      rw [piecesLines] at enough ⊢
      cases fuel with
      | zero => cases enough
      | succ fuel =>
          obtain ⟨found, matched, start, size1, size2, _⟩ := env.matchHeader_piece piece
            (before1 + piece.gap.length) (before2 + piece.gap.length)
          have body := @HunkReading.readBody_lines piece.oldSide.length piece.newSide.length _
            (piecesLines_head rest (before1 + piece.gap.length + piece.oldSide.length)
              (before2 + piece.gap.length + piece.newSide.length)) piece.body {}
            (by simp [HunkReading.countOf, DiffPiece.oldSide])
            (by simp [HunkReading.countOf, DiffPiece.newSide])
          have added : ∀ hunk : ReportHunk, hunk.lines ≠ [] →
              ReportReading.addHunk { files := [(path, hunks)], current := some path } path hunk =
                { files := [(path, hunks ++ [hunk])], current := some path } := by
            intro hunk nonempty
            rw [ReportReading.addHunk, if_neg nonempty]
            simp
          have here := added _ (piece.hunkAt_filled (before1 + piece.gap.length))
          rw [DiffPiece.hunkAt] at here
          rw [List.length_cons, List.length_append] at enough
          rw [ReportReading.readFrom, piece.opensFile_header, if_neg Bool.false_ne_true, matched]
          simp only [size1, size2, body, start]
          rw [here, ih _ _ _ _ (by omega), List.append_assoc]
          rfl

namespace FileDiff

/-- The path of the file in the report. -/
def path (diff : FileDiff) : List Char :=
  extractPath diff.newName

theorem parseUnifiedDiff_text
    (env : DigitEnv)
    {diff : FileDiff}
    (plain : ∀ piece ∈ diff.pieces, piece.Plain) :
    parseUnifiedDiff env (String.ofList diff.text) =
      [(diff.path, reportHunks 0 diff.pieces)] := by
  have opens : ∀ old new : List Char,
      ReportReading.opensFile ("--- ".toList ++ old) ("+++ ".toList ++ new) = true := by
    intro old new
    simp [ReportReading.opensFile]
  have nonempty : reportHunks 0 diff.pieces ≠ [] := by
    intro empty
    cases same : diff.pieces with
    | nil => exact diff.filled same
    | cons piece rest =>
        rw [same] at empty
        cases empty
  have opened : ReportReading.openFile {} diff.path =
      { files := [(diff.path, [])], current := some diff.path } := by
    rw [ReportReading.openFile, path, if_pos diff.named]
    rfl
  have name : (("+++ ".toList ++ diff.newName).drop 4) = diff.newName := rfl
  rw [parseUnifiedDiff, splitLines_text plain]
  simp only [List.length_cons]
  rw [ReportReading.readFrom, List.headD_cons, opens, if_pos rfl, name, List.tail_cons]
  have read := readFrom_pieces env diff.path diff.pieces 0 0
    ((piecesLines 0 0 diff.pieces).length + 1) [] (Nat.le_succ _)
  rw [List.nil_append, ← opened] at read
  rw [path] at read ⊢
  rw [read]
  simp [nonempty]

end FileDiff

end MrAgent
