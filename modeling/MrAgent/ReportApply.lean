import MrAgent.ReportPlacement

namespace MrAgent

/-!
# Applying the hunks of a diff

The hunks of a diff are applied to the lines of the old version as they are
placed. The final newline is decided once, from the old version and the markers
of all hunks.
-/

/-- The lines of one side of a body. -/
def bodySide
    (other : DiffLineKind)
    (body : List (DiffLineKind × FileLine)) : List (List Char) :=
  (body.filter (·.1 ≠ other)).map (·.2.stem)

theorem bodySide_cons
    (other : DiffLineKind)
    (entry : DiffLineKind × FileLine)
    (body : List (DiffLineKind × FileLine)) :
    bodySide other (entry :: body) =
      if entry.1 = other then bodySide other body else entry.2.stem :: bodySide other body := by
  rw [bodySide, List.filter_cons]
  by_cases same : entry.1 = other <;> simp [same, bodySide]

theorem applyLines_body
    {original front back : List (List Char)}
    {body : List (DiffLineKind × FileLine)}
    (isOriginal : original = front ++ (bodySide .addition body ++ back)) :
    applyLines original front.length (body.map fun entry => (entry.1, entry.2.stem)) =
      some (front.length + (bodySide .addition body).length, bodySide .deletion body) := by
  induction body generalizing front with
  | nil => rfl
  | cons entry body ih =>
      obtain ⟨kind, line⟩ := entry
      rw [bodySide_cons] at isOriginal
      rw [bodySide_cons, bodySide_cons, List.map_cons]
      have moved : ∀ rest, original = front ++ (line.stem :: rest) →
          original[front.length]? = some line.stem ∧
            original = (front ++ [line.stem]) ++ rest := by
        intro rest same
        constructor
        · rw [same, List.getElem?_append_right (Nat.le_refl _), Nat.sub_self]
          rfl
        · rw [same, List.append_assoc]
          rfl
      have size : (front ++ [line.stem]).length = front.length + 1 := List.length_append
      cases kind with
      | context =>
          obtain ⟨here, further⟩ := moved _ isOriginal
          have later := ih further
          rw [size] at later
          rw [applyLines, later, List.getD_eq_getElem?_getD, here]
          simp
          omega
      | deletion =>
          obtain ⟨here, further⟩ := moved _ isOriginal
          have later := ih further
          rw [size] at later
          rw [applyLines, here]
          simp only [if_pos, later]
          simp
          omega
      | addition =>
          have later := ih isOriginal
          rw [applyLines, later]
          rfl

namespace DiffPiece

/-- The hunk as it is placed. -/
def placement (piece : DiffPiece) : Placement (List Char) where
  gap := piece.gap.map FileLine.stem
  replaces := !piece.oldSide.isEmpty
  added := piece.newSide.map FileLine.stem

end DiffPiece

theorem applyFrom_hunk
    {original done pending back : List (List Char)}
    {body : List (DiffLineKind × FileLine)}
    {hunk : ReportHunk}
    (isOriginal : original = done ++ (pending ++ (bodySide .addition body ++ back)))
    (start : hunk.oldStart = done.length + pending.length + 1)
    (lines : hunk.lines = body.map fun entry => (entry.1, entry.2.stem))
    (rest : List ReportHunk) :
    applyFrom original done.length (hunk :: rest) =
      (applyFrom original (done.length + pending.length + (bodySide .addition body).length)
          rest).map fun later => pending ++ (bodySide .deletion body ++ later) := by
  have size : (done ++ pending).length = done.length + pending.length := List.length_append
  have applied := @applyLines_body original (done ++ pending) back body
    (by rw [isOriginal, List.append_assoc])
  have total : done.length + pending.length ≤ original.length := by
    rw [isOriginal, ← List.append_assoc, List.length_append, size]
    omega
  have target : ((hunk.oldStart : Int) - 1).toNat = done.length + pending.length := by
    omega
  have inside : ¬ ((hunk.oldStart : Int) - 1 < done.length ∨
      (hunk.oldStart : Int) - 1 > original.length) := by
    omega
  have skipped : (original.drop done.length).take
      (done.length + pending.length - done.length) = pending := by
    rw [isOriginal, List.drop_left, Nat.add_sub_cancel_left, List.take_left]
  rw [size] at applied
  rw [applyFrom, if_neg inside, target, lines, applied, Option.bind_some, skipped]

theorem bodySide_eq
    (piece : DiffPiece) :
    bodySide .addition piece.body = piece.oldSide.map FileLine.stem ∧
      bodySide .deletion piece.body = piece.newSide.map FileLine.stem := by
  constructor
  · rw [bodySide, DiffPiece.oldSide, List.map_map]
    rfl
  · rw [bodySide, DiffPiece.newSide, List.map_map]
    rfl

theorem versionLines_cons
    (side : DiffPiece → List FileLine)
    (piece : DiffPiece)
    (rest : List DiffPiece)
    (tail : List FileLine) :
    versionLines side (piece :: rest) tail =
      piece.gap ++ (side piece ++ versionLines side rest tail) := by
  rw [versionLines, List.flatMap_cons, List.append_assoc, List.append_assoc]
  rfl

theorem applyFrom_reportHunks
    {original done : List (List Char)}
    {carried : Option (List Char)}
    {pieces : List DiffPiece}
    {tail : List FileLine}
    (isOriginal : original = done ++ (carried.toList ++
      (versionLines DiffPiece.oldSide pieces tail).map FileLine.stem)) :
    applyFrom original done.length (reportHunks (done.length + carried.toList.length) pieces) =
      Placement.placed carried (pieces.map DiffPiece.placement) (tail.map FileLine.stem) := by
  induction pieces generalizing done carried with
  | nil =>
      rw [reportHunks, applyFrom, isOriginal, List.drop_left]
      rfl
  | cons piece rest ih =>
      obtain ⟨oldSide, newSide⟩ := bodySide_eq piece
      have sizeOld : (bodySide .addition piece.body).length = piece.oldSide.length := by
        rw [oldSide, List.length_map]
      -- The lines before the hunk that are not written yet.
      have pending : ∃ pending, pending = carried.toList ++ piece.gap.map FileLine.stem := ⟨_, rfl⟩
      obtain ⟨pending, isPending⟩ := pending
      have size : pending.length = carried.toList.length + piece.gap.length := by
        rw [isPending, List.length_append, List.length_map]
      have further : original = done ++ (pending ++ (bodySide .addition piece.body ++
          (versionLines DiffPiece.oldSide rest tail).map FileLine.stem)) := by
        rw [isOriginal, versionLines_cons, List.map_append, List.map_append, isPending, oldSide]
        simp only [List.append_assoc]
      have here : done.length + carried.toList.length + piece.gap.length =
          done.length + pending.length := by
        omega
      rw [reportHunks, List.map_cons, Placement.placed, here]
      by_cases inserts : piece.oldSide = []
      · have keeps : piece.placement.replaces = false := by
          rw [DiffPiece.placement, inserts]
          rfl
        have start : (piece.hunkAt (done.length + pending.length)).oldStart =
            done.length + pending.length := by
          change DiffPiece.startOf _ _ = _
          rw [inserts]
          rfl
        have none_ : bodySide .addition piece.body = [] := by
          rw [oldSide, inserts]
          rfl
        rw [keeps, if_neg Bool.false_ne_true, DiffPiece.placement, ← isPending, ← newSide]
        cases isLast : pending.getLast? with
        | none =>
            have empty : pending = [] := List.getLast?_eq_none_iff.mp isLast
            have before : ((piece.hunkAt (done.length + pending.length)).oldStart : Int) - 1 <
                done.length := by
              rw [start, empty, List.length_nil]
              omega
            rw [applyFrom, if_pos (Or.inl before)]
            rfl
        | some last =>
            -- The hunk is placed before the last line, which is carried behind it.
            have front := List.dropLast_append_getLast? last isLast
            have sizeFront : pending.dropLast.length + 1 = pending.length := by
              have sizes := congrArg List.length front
              rwa [List.length_append, List.length_singleton] at sizes
            have before : original = done ++ (pending.dropLast ++
                (bodySide .addition piece.body ++
                  (last :: (versionLines DiffPiece.oldSide rest tail).map FileLine.stem))) := by
              conv at further => rw [← front, none_]
              rw [further, none_]
              simp
            have later := @ih (done ++ pending.dropLast)
              (some last) (by rw [before, none_]; simp)
            simp only [List.length_append, Option.toList_some, List.length_singleton,
              Nat.add_assoc, sizeFront] at later
            rw [applyFrom_hunk before (by omega) (piece.lines_hunkAt _), none_, inserts]
            simp only [List.length_nil, Nat.add_zero]
            rw [later]
            rfl
      · have replaces : piece.placement.replaces = true := by
          simp [DiffPiece.placement, inserts]
        have start : (piece.hunkAt (done.length + pending.length)).oldStart =
            done.length + pending.length + 1 := by
          change DiffPiece.startOf _ _ = _
          rw [DiffPiece.startOf, if_neg (by simpa using inserts)]
        have later := @ih
          (done ++ (pending ++ bodySide .addition piece.body)) none
          (by rw [further]; simp)
        simp only [List.length_append, Option.toList_none, List.length_nil, Nat.add_zero, sizeOld,
          ← Nat.add_assoc] at later
        rw [replaces, if_pos rfl, applyFrom_hunk further start (piece.lines_hunkAt _), sizeOld,
          later, DiffPiece.placement, ← isPending, ← newSide]

/-! ## Texts of files -/

/-- The text of some lines, with a line feed between them and perhaps at the end. -/
def joined (final : Bool) (lines : List (List Char)) : List Char :=
  List.intercalate ['\n'] lines ++ if final then ['\n'] else []

theorem intercalate_concat
    {lines : List (List Char)}
    (filled : lines ≠ [])
    (line : List Char) :
    List.intercalate ['\n'] (lines ++ [line]) =
      List.intercalate ['\n'] lines ++ ('\n' :: line) := by
  induction lines with
  | nil => exact absurd rfl filled
  | cons first rest ih =>
      cases rest with
      | nil => simp
      | cons next rest =>
          rw [List.cons_append, List.cons_append, List.intercalate_cons_cons, ← List.cons_append,
            ih (List.cons_ne_nil _ _), List.intercalate_cons_cons]
          simp only [List.append_assoc]

theorem splitOn_joined
    {lines : List (List Char)}
    (filled : lines ≠ [])
    (whole : ∀ line ∈ lines, '\n' ∉ line)
    (final : Bool) :
    (joined final lines).splitOn '\n' = lines ++ if final then [[]] else [] := by
  rw [joined]
  cases final with
  | false =>
      have read := List.splitOn_intercalate '\n' whole filled
      simpa using read
  | true =>
      have all : ∀ line ∈ lines ++ [[]], '\n' ∉ line := by
        intro line member
        rcases List.mem_append.mp member with inside | last
        · exact whole line inside
        · rw [List.mem_singleton.mp last]
          exact List.not_mem_nil
      have read := List.splitOn_intercalate '\n' all (by simp)
      rwa [intercalate_concat filled] at read

theorem joined_inj
    {final other : Bool}
    {lines others : List (List Char)}
    (whole : ∀ line ∈ lines, '\n' ∉ line)
    (wholeOthers : ∀ line ∈ others, '\n' ∉ line)
    (filled : lines ≠ [])
    (size : lines.length = others.length)
    (same : joined final lines = joined other others) :
    final = other ∧ lines = others := by
  have filledOthers : others ≠ [] := by
    rw [← List.length_pos_iff, ← size]
    exact List.length_pos_of_ne_nil filled
  have split := congrArg (List.splitOn '\n') same
  rw [splitOn_joined filled whole, splitOn_joined filledOthers wholeOthers] at split
  obtain ⟨sameLines, ends⟩ := List.append_inj split size
  refine ⟨?_, sameLines⟩
  cases final <;> cases other <;> first | rfl | cases ends

section Files

variable {line : FileLine} {lines rest : List FileLine}

theorem WellEnded.tail
    (ended : WellEnded (line :: rest)) :
    WellEnded rest :=
  fun front other back same => ended (line :: front) other back (by rw [same]; rfl)

theorem WellEnded.head
    (ended : WellEnded (line :: rest))
    (missing : line.ended = false) :
    rest = [] ∧ line.text ≠ [] :=
  ended [] line rest rfl missing

theorem FileLine.splitLinesFrom_end
    (plain : line.Plain)
    (filled : line.text ≠ []) :
    splitLinesFrom [] line.text = [line.stem] := by
  obtain ⟨withReturn, same⟩ := line.text_eq_stem
  cases withReturn with
  | false =>
      have isStem : line.text = line.stem := same.trans (List.append_nil _)
      rw [isStem] at filled ⊢
      exact splitLinesFrom_last plain filled
  | true =>
      have alone : splitLinesFrom line.stem.reverse ['\r'] = _ :=
        splitLinesFrom_return (by decide) line.stem.reverse
      rw [same, if_pos rfl, splitLinesFrom_append plain, List.append_nil, alone,
        List.reverse_reverse]
      rfl

theorem splitLinesFrom_fileText
    (ended : WellEnded lines)
    (plain : ∀ line ∈ lines, line.Plain) :
    splitLinesFrom [] (fileText lines) = lines.map FileLine.stem := by
  induction lines with
  | nil => rfl
  | cons line rest ih =>
      obtain ⟨here, further⟩ := List.forall_mem_cons.mp plain
      have later := ih ended.tail further
      rw [fileText] at later
      rw [fileText, List.flatMap_cons, FileLine.fullText, List.map_cons]
      cases ends : line.ended with
      | true =>
          have first := @FileLine.splitLinesFrom_text line here [] rfl
            (rest.flatMap FileLine.fullText)
          rw [if_pos rfl, List.append_assoc, ← later]
          exact first
      | false =>
          obtain ⟨rfl, filled⟩ := ended.head ends
          have last := FileLine.splitLinesFrom_end here filled
          simpa using last

theorem fileText_eq_joined
    (ended : WellEnded lines)
    (filled : lines ≠ []) :
    fileText lines = joined (lines.all (·.ended)) (lines.map (·.text)) := by
  induction lines with
  | nil => exact absurd rfl filled
  | cons line rest ih =>
      rw [fileText, List.flatMap_cons, FileLine.fullText, List.map_cons, List.all_cons]
      cases rest with
      | nil => cases line.ended <;> simp [joined, lineEnd]
      | cons next rest =>
          have later := ih ended.tail (List.cons_ne_nil _ _)
          have ends : line.ended = true := by
            rw [← Bool.not_eq_false]
            exact fun missing => List.cons_ne_nil _ _ (ended.head missing).1
          rw [fileText] at later
          rw [ends, later, joined, joined, List.map_cons, List.intercalate_cons_cons]
          simp [lineEnd]

theorem fileText_ends_iff
    (ended : WellEnded lines)
    (filled : lines ≠ []) :
    (fileText lines).getLast? = some '\n' ↔ ∀ line ∈ lines, line.ended = true := by
  obtain ⟨front, last, rfl⟩ := List.eq_nil_or_concat lines |>.resolve_left filled
  rw [List.concat_eq_append] at ended ⊢
  have inside : ∀ line ∈ front, line.ended = true := by
    intro line member
    obtain ⟨before, behind, rfl⟩ := List.append_of_mem member
    rw [← Bool.not_eq_false]
    intro missing
    have nothing := (ended before line (behind ++ [last]) (by simp) missing).1
    exact List.append_ne_nil_of_right_ne_nil behind (List.cons_ne_nil last []) nothing
  have text : fileText (front ++ [last]) = fileText front ++ last.fullText := by
    rw [fileText, List.flatMap_append, List.flatMap_singleton]
    rfl
  rw [text, List.getLast?_append, FileLine.fullText]
  cases ends : last.ended with
  | true =>
      refine iff_of_true (by simp [lineEnd]) fun line member => ?_
      rcases List.mem_append.mp member with before | here
      · exact inside line before
      · rw [List.mem_singleton.mp here]
        exact ends
  | false =>
      have nonempty := (ended front last [] rfl ends).2
      refine iff_of_false ?_ fun all => ?_
      · rw [if_neg Bool.false_ne_true, List.append_nil, List.getLast?_eq_some_getLast nonempty]
        intro same
        exact last.whole (Option.some.inj same ▸ List.getLast_mem nonempty)
      · have found := all last (List.mem_append_right front (List.mem_singleton_self last))
        rw [ends] at found
        cases found

end Files

/-! ## The final newline -/

/-- A line without its end stands on that side of a hunk. -/
def MissesEnd (side : DiffPiece → List FileLine) (pieces : List DiffPiece) : Prop :=
  ∃ piece ∈ pieces, ∃ line ∈ side piece, line.ended = false

theorem DiffPiece.noNewline_hunkAt
    (piece : DiffPiece)
    (before1 : Nat) :
    ((piece.hunkAt before1).oldNoNewline = true ↔ ∃ line ∈ piece.oldSide, line.ended = false) ∧
      ((piece.hunkAt before1).newNoNewline = true ↔
        ∃ line ∈ piece.newSide, line.ended = false) := by
  obtain ⟨old, new⟩ := HunkReading.noNewline_foldl piece.body {}
  have regroup : ∀ other : DiffLineKind,
      (∃ kind line, (kind, line) ∈ piece.body ∧ ¬ kind = other ∧ line.ended = false) ↔
        ∃ line, (∃ kind, (kind, line) ∈ piece.body ∧ ¬ kind = other) ∧ line.ended = false :=
    fun _ =>
      ⟨fun ⟨kind, line, inside, isSide, missing⟩ => ⟨line, ⟨kind, inside, isSide⟩, missing⟩,
        fun ⟨line, ⟨kind, inside, isSide⟩, missing⟩ => ⟨kind, line, inside, isSide, missing⟩⟩
  constructor
  · refine (Bool.eq_iff_iff.mp old).trans ?_
    simp [oldSide]
    exact regroup _
  · refine (Bool.eq_iff_iff.mp new).trans ?_
    simp [newSide]
    exact regroup _

theorem noNewline_reportHunks
    (pieces : List DiffPiece)
    (before1 : Nat) :
    ((reportHunks before1 pieces).any (·.oldNoNewline) = true ↔
        MissesEnd DiffPiece.oldSide pieces) ∧
      ((reportHunks before1 pieces).any (·.newNoNewline) = true ↔
        MissesEnd DiffPiece.newSide pieces) := by
  induction pieces generalizing before1 with
  | nil => simp [reportHunks, MissesEnd]
  | cons piece rest ih =>
      obtain ⟨old, new⟩ := piece.noNewline_hunkAt (before1 + piece.gap.length)
      obtain ⟨oldLater, newLater⟩ :=
        ih (before1 + piece.gap.length + piece.oldSide.length)
      rw [reportHunks, List.any_cons, List.any_cons, Bool.or_eq_true, Bool.or_eq_true, old, new,
        oldLater, newLater, MissesEnd, MissesEnd, MissesEnd, MissesEnd, List.exists_mem_cons_iff,
        List.exists_mem_cons_iff]
      exact ⟨Iff.rfl, Iff.rfl⟩

namespace FileDiff

variable (diff : FileDiff)

theorem mem_versionLines
    {side : DiffPiece → List FileLine}
    {pieces : List DiffPiece}
    {tail : List FileLine}
    {line : FileLine} :
    line ∈ versionLines side pieces tail ↔
      (∃ piece ∈ pieces, line ∈ piece.gap ∨ line ∈ side piece) ∨ line ∈ tail := by
  simp [versionLines]

theorem gap_ended
    {piece : DiffPiece}
    (isPiece : piece ∈ diff.pieces)
    {line : FileLine}
    (member : line ∈ piece.gap) :
    line.ended = true := by
  rw [← Bool.not_eq_false]
  intro missing
  obtain ⟨front, back, isPieces⟩ := List.append_of_mem isPiece
  obtain ⟨before, behind, isGap⟩ := List.append_of_mem member
  have none_ : ∀ side, WellEnded (versionLines side diff.pieces diff.tail) → side piece = [] := by
    intro side ended
    have lines : versionLines side diff.pieces diff.tail =
        (front.flatMap (fun piece => piece.gap ++ side piece) ++ before) ++
          line :: (behind ++ (side piece ++ versionLines side back diff.tail)) := by
      rw [isPieces, versionLines, List.flatMap_append, List.flatMap_cons, isGap, versionLines]
      simp
    have nothing := (ended _ line _ lines missing).1
    exact (List.append_eq_nil_iff.mp (List.append_eq_nil_iff.mp nothing).2).1
  have oldNone := none_ DiffPiece.oldSide diff.oldEnded
  have newNone := none_ DiffPiece.newSide diff.newEnded
  obtain ⟨entry, inside, _⟩ := piece.changes
  rw [DiffPiece.oldSide, List.map_eq_nil_iff, List.filter_eq_nil_iff] at oldNone
  rw [DiffPiece.newSide, List.map_eq_nil_iff, List.filter_eq_nil_iff] at newNone
  have isAddition : entry.1 = .addition := by simpa using oldNone entry inside
  have isDeletion : entry.1 = .deletion := by simpa using newNone entry inside
  rw [isAddition] at isDeletion
  cases isDeletion

theorem not_missesEnd
    {side : DiffPiece → List FileLine}
    (ended : WellEnded (versionLines side diff.pieces diff.tail))
    (goesOn : diff.tail ≠ []) :
    ¬ MissesEnd side diff.pieces := by
  rintro ⟨piece, isPiece, line, member, missing⟩
  obtain ⟨front, back, isPieces⟩ := List.append_of_mem isPiece
  obtain ⟨before, behind, isSide⟩ := List.append_of_mem member
  have lines : versionLines side diff.pieces diff.tail =
      (front.flatMap (fun piece => piece.gap ++ side piece) ++ (piece.gap ++ before)) ++
        line :: (behind ++ versionLines side back diff.tail) := by
    rw [isPieces, versionLines, List.flatMap_append, List.flatMap_cons, isSide, versionLines]
    simp
  have nothing := (ended _ line _ lines missing).1
  rw [versionLines] at nothing
  exact goesOn (List.append_eq_nil_iff.mp (List.append_eq_nil_iff.mp nothing).2).2

/-- The final newline that is decided for the whole file. -/
def addsNewline : Bool :=
  let hunks := reportHunks 0 diff.pieces
  !hunks.any (·.newNoNewline) &&
    ((fileText diff.oldLines).getLast? = some '\n' || hunks.any (·.oldNoNewline))

theorem addsNewline_iff
    (filled : diff.oldLines ≠ []) :
    diff.addsNewline = true ↔ ∀ line ∈ diff.newLines, line.ended = true := by
  obtain ⟨oldFlag, newFlag⟩ := noNewline_reportHunks diff.pieces 0
  have ends : (fileText diff.oldLines).getLast? = some '\n' ↔
      ∀ line ∈ diff.oldLines, line.ended = true :=
    fileText_ends_iff diff.oldEnded filled
  have decided : diff.addsNewline = true ↔ ¬ MissesEnd DiffPiece.newSide diff.pieces ∧
      ((∀ line ∈ diff.oldLines, line.ended = true) ∨
        MissesEnd DiffPiece.oldSide diff.pieces) := by
    rw [addsNewline, Bool.and_eq_true, Bool.or_eq_true, Bool.not_eq_true', ← Bool.not_eq_true,
      newFlag, oldFlag, decide_eq_true_iff, ← ends]
  rw [decided]
  constructor
  · rintro ⟨newEnds, old⟩ line member
    rcases mem_versionLines.mp member with ⟨piece, isPiece, gap | side⟩ | tail
    · exact diff.gap_ended isPiece gap
    · rw [← Bool.not_eq_false]
      exact fun missing => newEnds ⟨piece, isPiece, line, side, missing⟩
    · have goesOn := List.ne_nil_of_mem tail
      have oldEnds := old.resolve_right (diff.not_missesEnd diff.oldEnded goesOn)
      exact oldEnds line (mem_versionLines.mpr (Or.inr tail))
  · intro newEnds
    constructor
    · rintro ⟨piece, isPiece, line, member, missing⟩
      have found := newEnds line (mem_versionLines.mpr (Or.inl ⟨piece, isPiece, Or.inr member⟩))
      rw [missing] at found
      cases found
    · by_cases misses : MissesEnd DiffPiece.oldSide diff.pieces
      · exact Or.inr misses
      · refine Or.inl fun line member => ?_
        rcases mem_versionLines.mp member with ⟨piece, isPiece, gap | side⟩ | tail
        · exact diff.gap_ended isPiece gap
        · rw [← Bool.not_eq_false]
          exact fun missing => misses ⟨piece, isPiece, line, side, missing⟩
        · exact newEnds line (mem_versionLines.mpr (Or.inr tail))

end FileDiff

end MrAgent
