import MrAgent.ReportApply

namespace MrAgent

/-!
# The line numbers of a parsed patch

The unit-test agent reads a patch into hunks of numbered lines. Every line that
has no sign counts as context, also the marker of a missing newline and the
empty text behind a last newline. The numbers are those of the files exactly
when the patch has neither.
-/

/-- `HunkInfo` -/
structure HunkInfo where
  oldStart : Nat
  oldCount : Nat
  newStart : Nat
  newCount : Nat
  headerContext : List Char
  addedLines : List (Nat × List Char) := []
  deletedLines : List (Nat × List Char) := []
  contextLines : List (Nat × List Char) := []
deriving DecidableEq

/-- The variables of `parse_patch`; the current hunk is the last of the list. -/
structure ParseReading where
  before : List HunkInfo := []
  currentHunk : Option HunkInfo := none
  newLineNo : Nat := 0
  oldLineNo : Nat := 0

/-- `hunks` -/
def ParseReading.hunks (reading : ParseReading) : List HunkInfo :=
  reading.before ++ reading.currentHunk.toList

/-- The kind of a line and its content. -/
def lineKind : List Char → DiffLineKind × List Char
  | '+' :: content => (.addition, content)
  | '-' :: content => (.deletion, content)
  | ' ' :: content => (.context, content)
  | line => (.context, line)

namespace DigitEnv

variable (env : DigitEnv)

/-- The hunk that a header opens. -/
def hunkInfo (found : HeaderMatch) : HunkInfo where
  oldStart := env.number found.start1
  oldCount := (found.size1.map env.number).getD 1
  newStart := env.number found.start2
  newCount := (found.size2.map env.number).getD 1
  headerContext := strip found.section_

/-- A line of the patch. -/
def readPatchLine (reading : ParseReading) (line : List Char) : ParseReading :=
  match env.matchHeader line, reading.currentHunk with
  | some found, _ =>
    { before := reading.hunks
      currentHunk := some (env.hunkInfo found)
      newLineNo := env.number found.start2
      oldLineNo := env.number found.start1 }
  | none, none => reading
  | none, some hunk =>
    match lineKind line with
    | (.addition, content) =>
      { reading with
        currentHunk := some
          { hunk with addedLines := hunk.addedLines ++ [(reading.newLineNo, content)] }
        newLineNo := reading.newLineNo + 1 }
    | (.deletion, content) =>
      { reading with
        currentHunk := some
          { hunk with deletedLines := hunk.deletedLines ++ [(reading.oldLineNo, content)] }
        oldLineNo := reading.oldLineNo + 1 }
    | (.context, content) =>
      { reading with
        currentHunk := some
          { hunk with contextLines := hunk.contextLines ++ [(reading.newLineNo, content)] }
        newLineNo := reading.newLineNo + 1
        oldLineNo := reading.oldLineNo + 1 }

/-- `parse_patch` -/
def parsePatch (patch : List Char) : List HunkInfo :=
  ((patch.splitOn '\n').foldl env.readPatchLine {}).hunks

end DigitEnv

/-! ## Patches and their numbers -/

/-- A hunk behind some lines of both versions. -/
structure PlacedPiece where
  before1 : Nat
  before2 : Nat
  piece : DiffPiece

/-- The hunks of a diff with their places in both versions. -/
def placedPieces : Nat → Nat → List DiffPiece → List PlacedPiece
  | _, _, [] => []
  | before1, before2, piece :: rest =>
    let here1 := before1 + piece.gap.length
    let here2 := before2 + piece.gap.length
    ⟨here1, here2, piece⟩ ::
      placedPieces (here1 + piece.oldSide.length) (here2 + piece.newSide.length) rest

/-- The lines of a hunk as `split("\n")` leaves them. -/
def DiffPiece.bodyLines (piece : DiffPiece) : List (List Char) :=
  piece.body.flatMap fun entry =>
    (entry.1.sign :: entry.2.text) :: if entry.2.ended then [] else [noNewlineMarker]

/-- The kinds and the texts of the lines of a hunk. -/
def DiffPiece.content (piece : DiffPiece) : List (DiffLineKind × List Char) :=
  piece.body.map fun entry => (entry.1, entry.2.text)

/-- The patch of one file: lines before the first hunk, the hunks, and perhaps a last newline. -/
structure HunkPatch where
  preamble : List (List Char)
  plain : ∀ line ∈ preamble, '\n' ∉ line ∧ startsHeader line = false
  pieces : List DiffPiece
  finalNewline : Bool

namespace HunkPatch

def placed (patch : HunkPatch) : List PlacedPiece :=
  placedPieces 0 0 patch.pieces

def lines (patch : HunkPatch) : List (List Char) :=
  patch.preamble ++ patch.placed.flatMap fun place =>
    place.piece.header place.before1 place.before2 :: place.piece.bodyLines

def text (patch : HunkPatch) : List Char :=
  joined patch.finalNewline patch.lines

end HunkPatch

/-- The lines of one kind, with their numbers in the version that lacks the other kind. -/
def kindLines (kind other : DiffLineKind) (start : Nat)
    (body : List (DiffLineKind × List Char)) : List (Nat × List Char) :=
  (((body.filter (·.1 ≠ other)).zipIdx start).filter (·.1.1 = kind)).map fun entry =>
    (entry.2, entry.1.2)

/-- A parsed hunk has the numbers of the files and the counts of its header. -/
structure HunkExact (place : PlacedPiece) (hunk : HunkInfo) : Prop where
  added : hunk.addedLines = kindLines .addition .deletion (place.before2 + 1)
    place.piece.content
  deleted : hunk.deletedLines = kindLines .deletion .addition (place.before1 + 1)
    place.piece.content
  context : hunk.contextLines = kindLines .context .deletion (place.before2 + 1)
    place.piece.content
  newCount : hunk.contextLines.length + hunk.addedLines.length = hunk.newCount
  oldCount : hunk.contextLines.length + hunk.deletedLines.length = hunk.oldCount

/-- Every hunk of the patch is parsed exactly. -/
def ParsedExactly (patch : HunkPatch) (hunks : List HunkInfo) : Prop :=
  List.Forall₂ HunkExact patch.placed hunks

/-! ## Numbered lines -/

section Numbers

variable {kind other : DiffLineKind} {start : Nat} {body : List (DiffLineKind × List Char)}

theorem kindLines_concat
    (apart : kind ≠ other)
    (entry : DiffLineKind × List Char) :
    kindLines kind other start (body ++ [entry]) =
      kindLines kind other start body ++
        if entry.1 = kind then [(start + (body.filter (·.1 ≠ other)).length, entry.2)] else [] := by
  unfold kindLines
  rw [List.filter_append, List.zipIdx_append, List.filter_append, List.map_append]
  by_cases same : entry.1 = kind
  · simp [same, apart]
  · have apart' := apart.symm
    by_cases dropped : entry.1 = other <;> simp [same, dropped, apart']

theorem length_kindLines
    (apart : kind ≠ other) :
    (kindLines kind other start body).length = body.countP (·.1 = kind) := by
  induction body using List.reverseRecOn with
  | nil => rfl
  | append_singleton front entry ih =>
      rw [kindLines_concat apart, List.length_append, ih, List.countP_append]
      by_cases same : entry.1 = kind <;> simp [same]

theorem kindLines_startOf
    (before : Nat) :
    kindLines kind other (DiffPiece.startOf before (body.filter (·.1 ≠ other)).length) body =
      kindLines kind other (before + 1) body := by
  unfold DiffPiece.startOf
  split
  · next empty =>
      unfold kindLines
      rw [List.eq_nil_of_length_eq_zero empty]
      rfl
  · rfl

end Numbers

/-! ## Reading the lines of a hunk -/

/-- A hunk with the lines that were read into it. -/
def HunkInfo.withBody (hunk : HunkInfo) (body : List (DiffLineKind × List Char)) : HunkInfo :=
  { hunk with
    addedLines := kindLines .addition .deletion hunk.newStart body
    deletedLines := kindLines .deletion .addition hunk.oldStart body
    contextLines := kindLines .context .deletion hunk.newStart body }

/-- The variables behind the lines of a hunk. -/
def ParseReading.behind (before : List HunkInfo) (hunk : HunkInfo)
    (body : List (DiffLineKind × List Char)) : ParseReading where
  before := before
  currentHunk := some (hunk.withBody body)
  newLineNo := hunk.newStart + (body.filter (·.1 ≠ .deletion)).length
  oldLineNo := hunk.oldStart + (body.filter (·.1 ≠ .addition)).length

namespace DigitEnv

variable (env : DigitEnv)

theorem readPatchLine_behind
    {line : List Char}
    (plain : env.matchHeader line = none)
    (before : List HunkInfo)
    (hunk : HunkInfo)
    (body : List (DiffLineKind × List Char)) :
    env.readPatchLine (.behind before hunk body) line =
      .behind before hunk (body ++ [lineKind line]) := by
  unfold readPatchLine ParseReading.behind HunkInfo.withBody
  rw [plain]
  obtain ⟨kind, content⟩ := lineKind line
  rw [kindLines_concat (by decide), kindLines_concat (by decide), kindLines_concat (by decide)]
  cases kind <;> simp [Nat.add_assoc]

theorem foldl_behind
    {lines : List (List Char)}
    (plain : ∀ line ∈ lines, env.matchHeader line = none)
    (before : List HunkInfo)
    (hunk : HunkInfo)
    (body : List (DiffLineKind × List Char)) :
    lines.foldl env.readPatchLine (.behind before hunk body) =
      .behind before hunk (body ++ lines.map lineKind) := by
  induction lines generalizing body with
  | nil => rw [List.map_nil, List.append_nil, List.foldl_nil]
  | cons line rest ih =>
      obtain ⟨here, further⟩ := List.forall_mem_cons.mp plain
      rw [List.foldl_cons, env.readPatchLine_behind here, ih further,
        List.append_assoc, List.singleton_append, List.map_cons]

theorem readPatchLine_header
    (reading : ParseReading)
    (place : PlacedPiece) :
    ∃ hunk : HunkInfo, env.readPatchLine reading (place.piece.header place.before1 place.before2) =
        .behind reading.hunks hunk [] ∧
      hunk.oldStart = DiffPiece.startOf place.before1 place.piece.oldSide.length ∧
      hunk.newStart = DiffPiece.startOf place.before2 place.piece.newSide.length ∧
      hunk.oldCount = place.piece.oldSide.length ∧ hunk.newCount = place.piece.newSide.length := by
  obtain ⟨found, matched, start1, size1, size2, start2⟩ :=
    env.matchHeader_piece place.piece place.before1 place.before2
  refine ⟨env.hunkInfo found, ?_, start1, start2, size1, size2⟩
  unfold readPatchLine
  rw [matched]
  rfl

end DigitEnv

theorem matchHeader_eq_none
    {env : DigitEnv}
    {line : List Char}
    (plain : startsHeader line = false) :
    env.matchHeader line = none := by
  rw [← Option.not_isSome_iff_eq_none]
  intro matched
  rw [startsHeader_of_matchHeader matched] at plain
  cases plain

variable (piece : DiffPiece)

theorem startsHeader_bodyLines :
    ∀ line ∈ piece.bodyLines, startsHeader line = false := by
  intro line member
  obtain ⟨⟨kind, content⟩, _, inEntry⟩ := List.mem_flatMap.mp member
  rcases List.mem_cons.mp inEntry with rfl | marker
  · cases kind <;> rfl
  · split at marker
    · cases marker
    · rw [List.mem_singleton.mp marker]
      rfl

/-! ## Exact hunks -/

theorem map_lineKind_bodyLines :
    piece.bodyLines.map lineKind = piece.body.flatMap fun entry =>
      (entry.1, entry.2.text) ::
        if entry.2.ended then [] else [(DiffLineKind.context, noNewlineMarker)] := by
  rw [DiffPiece.bodyLines, List.map_flatMap]
  refine List.flatMap_congr fun entry _ => ?_
  obtain ⟨kind, content⟩ := entry
  have sign : lineKind (kind.sign :: content.text) = (kind, content.text) := by
    cases kind <;> rfl
  rw [List.map_cons, sign]
  cases content.ended <;> rfl

theorem countP_side
    (own other : DiffLineKind)
    (sides : own ≠ other ∧ own ≠ .context ∧ other ≠ .context)
    (body : List (DiffLineKind × List Char)) :
    body.countP (·.1 = .context) + body.countP (·.1 = own) =
      (body.filter (·.1 ≠ other)).length := by
  induction body with
  | nil => rfl
  | cons entry rest ih =>
      obtain ⟨kind, content⟩ := entry
      rw [List.countP_cons, List.countP_cons, List.filter_cons]
      cases own <;> cases other <;> simp_all <;> cases kind <;> simp_all <;> omega

theorem countP_read
    (kind : DiffLineKind)
    (piece : DiffPiece) :
    (piece.bodyLines.map lineKind).countP (·.1 = kind) =
      piece.content.countP (·.1 = kind) +
        if kind = .context then piece.body.countP (·.2.ended = false) else 0 := by
  rw [map_lineKind_bodyLines, DiffPiece.content]
  induction piece.body with
  | nil => simp
  | cons entry rest ih =>
      rw [List.flatMap_cons, List.countP_append, ih, List.map_cons,
        List.countP_cons, List.countP_cons, List.countP_cons]
      cases ended : entry.2.ended <;> by_cases context : kind = .context <;>
        simp [context, Ne.symm] <;> omega

theorem hunkExact_iff
    {place : PlacedPiece}
    {hunk : HunkInfo}
    (start1 : hunk.oldStart = DiffPiece.startOf place.before1 place.piece.oldSide.length)
    (start2 : hunk.newStart = DiffPiece.startOf place.before2 place.piece.newSide.length)
    (size1 : hunk.oldCount = place.piece.oldSide.length)
    (size2 : hunk.newCount = place.piece.newSide.length)
    (more : List (List Char))
    (plain : ∀ line ∈ more, (lineKind line).1 = .context) :
    HunkExact place (hunk.withBody ((place.piece.bodyLines ++ more).map lineKind)) ↔
      (∀ entry ∈ place.piece.body, entry.2.ended = true) ∧ more = [] := by
  have newSize : place.piece.newSide.length =
      (place.piece.content.filter (·.1 ≠ .deletion)).length := by
    simp [DiffPiece.content, DiffPiece.newSide, List.filter_map, Function.comp_def]
  have oldSize : place.piece.oldSide.length =
      (place.piece.content.filter (·.1 ≠ .addition)).length := by
    simp [DiffPiece.content, DiffPiece.oldSide, List.filter_map, Function.comp_def]
  rw [List.map_append]
  constructor
  · intro exact
    have counted := exact.newCount
    have context : (more.map lineKind).countP (·.1 = .context) = more.length := by
      rw [List.countP_map, List.countP_eq_length.mpr]
      exact fun line member => decide_eq_true (plain line member)
    have signed := countP_side .addition .deletion (by decide) place.piece.content
    simp only [HunkInfo.withBody] at counted
    rw [length_kindLines (by decide), length_kindLines (by decide), List.countP_append,
      List.countP_append, countP_read, countP_read, context, size2, newSize,
      if_pos rfl, if_neg (by decide)] at counted
    have unended : place.piece.body.countP (·.2.ended = false) = 0 := by omega
    have none : more.length = 0 := by omega
    refine ⟨fun entry member => ?_, List.eq_nil_of_length_eq_zero none⟩
    have ended := List.countP_eq_zero.mp unended entry member
    simpa using ended
  · rintro ⟨ended, rfl⟩
    have same : place.piece.bodyLines.map lineKind ++ ([] : List (List Char)).map lineKind =
        place.piece.content := by
      rw [List.map_nil, List.append_nil, map_lineKind_bodyLines, DiffPiece.content,
        List.map_eq_flatMap]
      refine List.flatMap_congr fun entry member => ?_
      rw [if_pos (ended entry member)]
    rw [same]
    refine ⟨?_, ?_, ?_, ?_, ?_⟩ <;> simp only [HunkInfo.withBody]
    · rw [start2, newSize, kindLines_startOf]
    · rw [start1, oldSize, kindLines_startOf]
    · rw [start2, newSize, kindLines_startOf]
    · rw [length_kindLines (by decide), length_kindLines (by decide), size2, newSize,
        countP_side .addition .deletion (by decide)]
    · rw [length_kindLines (by decide), length_kindLines (by decide), size1, oldSize,
        countP_side .deletion .addition (by decide)]

/-- The hunks with the lines that are read behind them: one for a last newline. -/
def endedPieces (finalNewline : Bool) : List PlacedPiece → List (PlacedPiece × List (List Char))
  | [] => []
  | [last] => [(last, if finalNewline then [[]] else [])]
  | place :: next :: rest => (place, []) :: endedPieces finalNewline (next :: rest)

variable (finalNewline : Bool)

theorem forall_endedPieces_iff
    (good : PlacedPiece → Prop)
    (places : List PlacedPiece) :
    (∀ ended ∈ endedPieces finalNewline places, good ended.1 ∧ ended.2 = []) ↔
      (∀ place ∈ places, good place) ∧ (finalNewline = true → places = []) := by
  induction places using endedPieces.induct with
  | case1 => simp [endedPieces]
  | case2 last => cases finalNewline <;> simp [endedPieces]
  | case3 place next rest ih =>
      rw [endedPieces, List.forall_mem_cons, ih, List.forall_mem_cons]
      simp [and_assoc]

/-- The lines of a hunk and those read behind them. -/
def chunkLines (ended : PlacedPiece × List (List Char)) : List (List Char) :=
  ended.1.piece.header ended.1.before1 ended.1.before2 :: (ended.1.piece.bodyLines ++ ended.2)

theorem flatMap_endedPieces
    {places : List PlacedPiece}
    (filled : places ≠ [])
    (finalNewline : Bool) :
    (endedPieces finalNewline places).flatMap chunkLines =
      places.flatMap (fun place =>
        place.piece.header place.before1 place.before2 :: place.piece.bodyLines) ++
          if finalNewline then [[]] else [] := by
  induction places using endedPieces.induct with
  | case1 => exact absurd rfl filled
  | case2 last => simp [endedPieces, chunkLines]
  | case3 place next rest ih =>
      rw [endedPieces, List.flatMap_cons, ih (List.cons_ne_nil _ _), chunkLines,
        List.append_nil, ← List.append_assoc]
      rfl

variable (places : List PlacedPiece)

theorem map_fst_endedPieces :
    (endedPieces finalNewline places).map (·.1) = places := by
  induction places using endedPieces.induct with
  | case1 => rfl
  | case2 last => rfl
  | case3 place next rest ih => rw [endedPieces, List.map_cons, ih]

theorem eq_nil_of_mem_endedPieces :
    ∀ ended ∈ endedPieces finalNewline places, ∀ line ∈ ended.2, line = [] := by
  induction places using endedPieces.induct with
  | case1 => simp [endedPieces]
  | case2 last => cases finalNewline <;> simp [endedPieces]
  | case3 place next rest ih =>
      rw [endedPieces, List.forall_mem_cons]
      refine ⟨fun line member => ?_, ih⟩
      cases member

theorem foldl_plain
    (env : DigitEnv)
    {lines : List (List Char)}
    (plain : ∀ line ∈ lines, startsHeader line = false) :
    lines.foldl env.readPatchLine {} = {} := by
  induction lines with
  | nil => rfl
  | cons line rest ih =>
      obtain ⟨here, further⟩ := List.forall_mem_cons.mp plain
      rw [List.foldl_cons, DigitEnv.readPatchLine, matchHeader_eq_none here]
      exact ih further

theorem foldl_chunks
    (env : DigitEnv)
    {chunks : List (PlacedPiece × List (List Char))}
    (empty : ∀ ended ∈ chunks, ∀ line ∈ ended.2, line = [])
    (reading : ParseReading) :
    ∃ results, ((chunks.flatMap chunkLines).foldl env.readPatchLine reading).hunks =
        reading.hunks ++ results ∧
      (List.Forall₂ HunkExact (chunks.map (·.1)) results ↔
        ∀ ended ∈ chunks, (∀ entry ∈ ended.1.piece.body, entry.2.ended = true) ∧ ended.2 = []) := by
  induction chunks generalizing reading with
  | nil => exact ⟨[], (List.append_nil _).symm, by simp⟩
  | cons ended rest ih =>
      obtain ⟨here, further⟩ := List.forall_mem_cons.mp empty
      obtain ⟨hunk, opened, start1, start2, size1, size2⟩ :=
        env.readPatchLine_header reading ended.1
      have plain : ∀ line ∈ ended.1.piece.bodyLines ++ ended.2, env.matchHeader line = none := by
        intro line member
        refine matchHeader_eq_none ?_
        rcases List.mem_append.mp member with inBody | behind
        · exact startsHeader_bodyLines _ line inBody
        · rw [here line behind]
          rfl
      obtain ⟨results, read, exact_⟩ := ih further
        (.behind reading.hunks hunk ((ended.1.piece.bodyLines ++ ended.2).map lineKind))
      refine ⟨hunk.withBody ((ended.1.piece.bodyLines ++ ended.2).map lineKind) :: results, ?_, ?_⟩
      · rw [List.flatMap_cons, List.foldl_append, chunkLines, List.foldl_cons, opened,
          env.foldl_behind plain, List.nil_append, read, ParseReading.hunks, ParseReading.behind,
          List.append_assoc]
        rfl
      · rw [List.map_cons, List.forall₂_cons, List.forall_mem_cons, exact_,
          hunkExact_iff start1 start2 size1 size2 ended.2 fun line member => by
            rw [here line member]
            rfl]

variable (before1 before2 : Nat)

theorem newline_notMem_header :
    '\n' ∉ piece.header before1 before2 := by
  have range : ∀ start size leaveOut, '\n' ∉ rangeText start size leaveOut := by
    intro start size leaveOut member
    have whole := List.all_eq_true.mp (unbroken_rangeText start size leaveOut) _ member
    exact absurd whole (by decide)
  have fixed : '\n' ∉ "@@ -".toList ∧ '\n' ∉ " +".toList ∧ '\n' ∉ " @@".toList := by decide
  rw [DiffPiece.header]
  simp only [List.mem_append, range, fixed, piece.wholeSection, or_self, not_false_eq_true]

theorem newline_notMem_lines
    (patch : HunkPatch) :
    ∀ line ∈ patch.lines, '\n' ∉ line := by
  intro line member
  rcases List.mem_append.mp member with before | inHunk
  · exact (patch.plain line before).1
  · obtain ⟨place, _, inPlace⟩ := List.mem_flatMap.mp inHunk
    rcases List.mem_cons.mp inPlace with rfl | inBody
    · exact newline_notMem_header _ _ _
    · obtain ⟨⟨kind, content⟩, _, inEntry⟩ := List.mem_flatMap.mp inBody
      rcases List.mem_cons.mp inEntry with rfl | marker
      · have sign : '\n' ≠ kind.sign := by cases kind <;> decide
        exact List.not_mem_cons_of_ne_of_not_mem sign content.whole
      · split at marker
        · cases marker
        · rw [List.mem_singleton.mp marker]
          decide

theorem placedPieces_pieces
    (pieces : List DiffPiece) :
    (placedPieces before1 before2 pieces).map (·.piece) = pieces := by
  induction pieces generalizing before1 before2 with
  | nil => rfl
  | cons piece rest ih => rw [placedPieces, List.map_cons, ih]

theorem splitOn_text
    (patch : HunkPatch) :
    ∃ plain, (∀ line ∈ plain, startsHeader line = false) ∧ patch.text.splitOn '\n' =
      plain ++ (endedPieces patch.finalNewline patch.placed).flatMap chunkLines := by
  have own : ∀ line ∈ patch.preamble, startsHeader line = false :=
    fun line member => (patch.plain line member).2
  by_cases filled : patch.lines = []
  · obtain ⟨noPreamble, noHunks⟩ := List.append_eq_nil_iff.mp filled
    have noPlaces : patch.placed = [] := by
      cases places : patch.placed with
      | nil => rfl
      | cons place rest => simp [places] at noHunks
    rw [HunkPatch.text, filled, noPlaces]
    exact ⟨(joined patch.finalNewline []).splitOn '\n', by cases patch.finalNewline <;> decide,
      (List.append_nil _).symm⟩
  · rw [HunkPatch.text, splitOn_joined filled (newline_notMem_lines patch)]
    by_cases places : patch.placed = []
    · refine ⟨patch.lines ++ if patch.finalNewline then [[]] else [], ?_, ?_⟩
      · intro line member
        rw [HunkPatch.lines, places, List.flatMap_nil, List.append_nil] at member
        rcases List.mem_append.mp member with before | final
        · exact own line before
        · cases last : patch.finalNewline with
          | false => simp [last] at final
          | true =>
              simp only [last, if_true, List.mem_singleton] at final
              rw [final]
              rfl
      · rw [places]
        exact (List.append_nil _).symm
    · exact ⟨patch.preamble, own, by
        rw [flatMap_endedPieces places, HunkPatch.lines, List.append_assoc]⟩

/--
A patch is parsed with the line numbers of its files and the counts of its
headers exactly when all its lines are ended and no newline follows its hunks.
-/
theorem patch_is_parsed_exactly_iff
    (env : DigitEnv)
    (patch : HunkPatch) :
    ParsedExactly patch (env.parsePatch patch.text) ↔
      (∀ piece ∈ patch.pieces, ∀ entry ∈ piece.body, entry.2.ended = true) ∧
        (patch.finalNewline = true → patch.pieces = []) := by
  obtain ⟨plain, unread, lines⟩ := splitOn_text patch
  obtain ⟨results, read, exact_⟩ := foldl_chunks env
    (eq_nil_of_mem_endedPieces patch.finalNewline patch.placed) {}
  have places := placedPieces_pieces 0 0 patch.pieces
  have none : patch.placed = [] ↔ patch.pieces = [] := by
    rw [← places, List.map_eq_nil_iff]
    rfl
  have pieces : (∀ place ∈ patch.placed, ∀ entry ∈ place.piece.body, entry.2.ended = true) ↔
      ∀ piece ∈ patch.pieces, ∀ entry ∈ piece.body, entry.2.ended = true := by
    rw [← places, List.forall_mem_map]
    rfl
  rw [map_fst_endedPieces, forall_endedPieces_iff patch.finalNewline
    (fun place => ∀ entry ∈ place.piece.body, entry.2.ended = true), pieces, none] at exact_
  rw [ParsedExactly, DigitEnv.parsePatch, lines, List.foldl_append, foldl_plain env unread, read]
  exact exact_

namespace MarkerSample

def env : DigitEnv := ⟨fun _ => none⟩

theorem whole_x : '\n' ∉ ['x'] := by
  decide

theorem whole_y : '\n' ∉ ['y'] := by
  decide

/-- A last line without a newline is replaced by one that has it. -/
def patch : HunkPatch where
  preamble := []
  plain := by simp
  pieces :=
    [{ gap := []
       body := [(.deletion, { text := ['x'], whole := whole_x, ended := false }),
         (.addition, { text := ['y'], whole := whole_y })]
       changes := by simp
       leaveOut1 := true
       leaveOut2 := true
       wholeSection := noSection }]
  finalNewline := false

end MarkerSample

/-- The marker counts as a line of the new file: its only line is given number two. -/
theorem marker_shifts_added_line :
    MarkerSample.patch.text =
        "@@ -1 +1 @@\n-x\n\\ No newline at end of file\n+y".toList ∧
      (MarkerSample.env.parsePatch MarkerSample.patch.text).map (·.addedLines) =
        [[(2, ['y'])]] ∧
      ¬ ParsedExactly MarkerSample.patch (MarkerSample.env.parsePatch MarkerSample.patch.text) := by
  have added : (MarkerSample.env.parsePatch MarkerSample.patch.text).map (·.addedLines) =
      [[(2, ['y'])]] := by decide +kernel
  refine ⟨by decide +kernel, added, fun exact => ?_⟩
  generalize MarkerSample.env.parsePatch MarkerSample.patch.text = hunks at added exact
  cases exact with
  | cons first _ =>
      have numbers := first.added.symm.trans (List.cons.inj added).1
      revert numbers
      decide +kernel

end MrAgent
