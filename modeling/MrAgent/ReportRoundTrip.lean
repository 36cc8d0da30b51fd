import MrAgent.ReportApply
import MrAgent.SeparatedText

namespace MrAgent

/-!
# Reports and new versions

A report is read and applied to the old version. The outcome is the new version
exactly when its lines contain no other line breaks and each hunk without an old
side adds copies of the line before it.
-/

/-! ## Line breaks -/

/-- The lines of the hunks contain no line breaks. -/
def WholeHunks (hunks : List ReportHunk) : Prop :=
  ∀ hunk ∈ hunks, ∀ entry ∈ hunk.lines, unbroken entry.2 = true

namespace HunkReading

theorem unbroken_tag
    {line : List Char}
    {entry : DiffLineKind × List Char}
    (whole : unbroken line = true)
    (tagged : tag line = some entry) :
    unbroken entry.2 = true := by
  rw [tag.eq_def] at tagged
  split at tagged <;> cases tagged
  · rfl
  all_goals
    rw [unbroken_cons, Bool.and_eq_true] at whole
    exact whole.2

theorem readBody_whole
    {oldCount newCount : Nat}
    {lines : List (List Char)}
    (whole : ∀ line ∈ lines, unbroken line = true)
    (reading : HunkReading)
    (wholeReading : ∀ entry ∈ reading.lines, unbroken entry.2 = true) :
    (∀ entry ∈ (readBody oldCount newCount reading lines).1.lines, unbroken entry.2 = true) ∧
      ∀ line ∈ (readBody oldCount newCount reading lines).2, unbroken line = true := by
  induction lines generalizing reading with
  | nil => exact ⟨wholeReading, fun _ member => absurd member List.not_mem_nil⟩
  | cons line rest ih =>
      obtain ⟨here, further⟩ := List.forall_mem_cons.mp whole
      rw [readBody]
      split
      · exact ih further reading.noNewline wholeReading
      · split
        · exact ⟨wholeReading, whole⟩
        · split
          · exact ⟨wholeReading, whole⟩
          · rename_i entry tagged
            refine ih further (reading.add entry) fun other member => ?_
            rcases List.mem_append.mp member with before | last
            · exact wholeReading other before
            · rw [List.mem_singleton.mp last]
              exact unbroken_tag here tagged

end HunkReading

namespace ReportReading

/-- The hunks read so far contain no line breaks. -/
def Whole (reading : ReportReading) : Prop :=
  ∀ file ∈ reading.files, WholeHunks file.2

theorem whole_openFile
    {reading : ReportReading}
    (whole : reading.Whole)
    (path : List Char) :
    (reading.openFile path).Whole := by
  rw [openFile]
  split
  · intro file member
    dsimp only at member
    split at member
    · exact whole file member
    · rcases List.mem_append.mp member with before | last
      · exact whole file before
      · rw [List.mem_singleton.mp last]
        exact fun _ inside => absurd inside List.not_mem_nil
  · exact whole

theorem whole_addHunk
    {reading : ReportReading}
    (whole : reading.Whole)
    {hunk : ReportHunk}
    (wholeHunk : ∀ entry ∈ hunk.lines, unbroken entry.2 = true)
    (path : List Char) :
    (reading.addHunk path hunk).Whole := by
  rw [addHunk]
  split
  · exact whole
  · intro file member
    obtain ⟨before, isBefore, rfl⟩ := List.mem_map.mp member
    split
    · intro other inside
      rcases List.mem_append.mp inside with earlier | last
      · exact whole before isBefore other earlier
      · rw [List.mem_singleton.mp last]
        exact wholeHunk
    · exact whole before isBefore

theorem whole_readFrom
    (env : DigitEnv)
    (fuel : Nat)
    {reading : ReportReading}
    (wholeReading : reading.Whole)
    {lines : List (List Char)}
    (whole : ∀ line ∈ lines, unbroken line = true) :
    (readFrom env fuel reading lines).Whole := by
  induction fuel generalizing reading lines with
  | zero => exact wholeReading
  | succ fuel ih =>
      cases lines with
      | nil => exact wholeReading
      | cons line rest =>
          have further := (List.forall_mem_cons.mp whole).2
          rw [readFrom]
          split
          · exact ih (whole_openFile wholeReading _)
              fun other member => further other (List.mem_of_mem_tail member)
          · split
            · rename_i header path _ _
              obtain ⟨body, left⟩ := @HunkReading.readBody_whole
                ((header.size1.map env.number).getD 1) ((header.size2.map env.number).getD 1) _
                further {}
                (fun _ member => absurd member List.not_mem_nil)
              exact ih (whole_addHunk wholeReading body path) left
            · exact ih wholeReading further

end ReportReading

variable {hunks : List ReportHunk}

theorem whole_parseUnifiedDiff
    (env : DigitEnv)
    {report : String}
    {path : List Char}
    (found : (parseUnifiedDiff env report).lookup path = some hunks) :
    WholeHunks hunks := by
  have whole := @ReportReading.whole_readFrom env (splitLines report).length {}
    (fun _ member => absurd member List.not_mem_nil)
    (splitLines report) fun line member => unbroken_of_mem_splitLines member
  obtain ⟨front, back, same, _⟩ := List.lookup_eq_some_iff.mp found
  have member : (path, hunks) ∈ parseUnifiedDiff env report := by
    rw [same]
    exact List.mem_append_right front List.mem_cons_self
  exact whole _ (List.mem_filter.mp member).1

variable {cursor : Nat} {original : List (List Char)}

theorem unbroken_of_mem_applyLines
    (whole : ∀ line ∈ original, unbroken line = true)
    {lines : List (DiffLineKind × List Char)}
    (wholeLines : ∀ entry ∈ lines, unbroken entry.2 = true)
    {done : Nat × List (List Char)}
    (applied : applyLines original cursor lines = some done) :
    ∀ line ∈ done.2, unbroken line = true := by
  induction lines generalizing cursor done with
  | nil =>
      cases applied
      exact fun _ member => absurd member List.not_mem_nil
  | cons entry rest ih =>
      obtain ⟨kind, text⟩ := entry
      obtain ⟨here, further⟩ := List.forall_mem_cons.mp wholeLines
      cases kind with
      | context =>
          rw [applyLines] at applied
          obtain ⟨later, isLater, rfl⟩ := Option.map_eq_some_iff.mp applied
          refine List.forall_mem_cons.mpr ⟨?_, ih further isLater⟩
          rw [List.getD_eq_getElem?_getD]
          cases found : original[cursor]? with
          | none => exact here
          | some line => exact whole line (List.mem_of_getElem? found)
      | deletion =>
          rw [applyLines] at applied
          split at applied
          · cases applied
          · split at applied
            · exact ih further applied
            · cases applied
      | addition =>
          rw [applyLines] at applied
          obtain ⟨later, isLater, rfl⟩ := Option.map_eq_some_iff.mp applied
          exact List.forall_mem_cons.mpr ⟨here, ih further isLater⟩

theorem unbroken_of_mem_applyFrom
    (whole : ∀ line ∈ original, unbroken line = true)
    (wholeHunks : WholeHunks hunks)
    {result : List (List Char)}
    (applied : applyFrom original cursor hunks = some result) :
    ∀ line ∈ result, unbroken line = true := by
  induction hunks generalizing cursor result with
  | nil =>
      cases applied
      exact fun line member => whole line (List.mem_of_mem_drop member)
  | cons hunk rest ih =>
      obtain ⟨here, further⟩ := List.forall_mem_cons.mp wholeHunks
      rw [applyFrom] at applied
      split at applied
      · cases applied
      · obtain ⟨done, isDone, applied⟩ := Option.bind_eq_some_iff.mp applied
        obtain ⟨tail, isTail, rfl⟩ := Option.map_eq_some_iff.mp applied
        intro line member
        rcases List.mem_append.mp member with before | member
        · exact whole line (List.mem_of_mem_drop (List.mem_of_mem_take before))
        · rcases List.mem_append.mp member with inside | after
          · exact unbroken_of_mem_applyLines whole here isDone line inside
          · exact ih further isTail line after

theorem break_of_mem_applyHunks
    {original : String}
    (whole : WholeHunks hunks)
    {content : List Char}
    (applied : applyHunks original hunks = some content)
    {c : Char}
    (member : c ∈ content)
    (broken : isLineBreak c = true) :
    c = '\n' := by
  rw [applyHunks] at applied
  obtain ⟨result, isResult, isContent⟩ := Option.map_eq_some_iff.mp applied
  have wholeResult := unbroken_of_mem_applyFrom
    (fun line inside => unbroken_of_mem_splitLines inside) whole isResult
  have inside : c ∈ List.intercalate ['\n'] result ∨ c ∈ ['\n'] := by
    dsimp only at isContent
    split at isContent
    · exact Or.inl (isContent ▸ member)
    · split at isContent
      · exact List.mem_append.mp (isContent ▸ member)
      · exact Or.inl (isContent ▸ member)
  rcases inside with text | last
  · by_contra apart
    obtain ⟨line, isLine, found⟩ := (SeparatedText.mem_intercalate apart result).mp text
    have plain := List.all_eq_true.mp (wholeResult line isLine) c found
    rw [broken] at plain
    cases plain
  · exact List.mem_singleton.mp last

/-! ## The new version -/

namespace DiffPiece

/-- `str.splitlines` reads the header and each deletion as one line. -/
def PlainDeletions (piece : DiffPiece) : Prop :=
  unbroken piece.section_ = true ∧
    ∀ entry ∈ piece.body, entry.1 = .deletion → entry.2.Plain

end DiffPiece

namespace FileDiff

variable (diff : FileDiff)

/-- Reading the diff and applying its hunks to the old version gives the new version. -/
def Reproduces (env : DigitEnv) : Prop :=
  (((parseUnifiedDiff env (String.ofList diff.text)).lookup diff.path).bind
    (applyHunks (String.ofList (fileText diff.oldLines)))) = some (fileText diff.newLines)

/-- A hunk without an old side adds only copies of the unchanged line before it. -/
def InsertsOnlyCopies : Prop :=
  Placement.OnlyCopies none (diff.pieces.map DiffPiece.placement)

variable {diff}

theorem unbroken_of_reproduces
    {env : DigitEnv}
    (reproduces : diff.Reproduces env) :
    ∀ line ∈ diff.newLines, unbroken line.text = true := by
  obtain ⟨hunks, found, applied⟩ := Option.bind_eq_some_iff.mp reproduces
  intro line isLine
  rw [unbroken, List.all_eq_true]
  intro c member
  rw [Bool.not_eq_true', ← Bool.not_eq_true]
  intro broken
  have inside : c ∈ fileText diff.newLines :=
    List.mem_flatMap.mpr ⟨line, isLine, List.mem_append_left _ member⟩
  have feed := break_of_mem_applyHunks (whole_parseUnifiedDiff env found) applied inside broken
  exact line.whole (feed ▸ member)

theorem plain_of_unbroken
    (plain : ∀ piece ∈ diff.pieces, piece.PlainDeletions)
    (whole : ∀ line ∈ diff.newLines, unbroken line.text = true) :
    (∀ piece ∈ diff.pieces, piece.Plain) ∧ ∀ line ∈ diff.oldLines, line.Plain := by
  have pieces : ∀ piece ∈ diff.pieces, piece.Plain := by
    intro piece isPiece
    refine ⟨(plain piece isPiece).1, fun entry inside => ?_⟩
    by_cases deletion : entry.1 = .deletion
    · exact (plain piece isPiece).2 entry inside deletion
    · have isNew : entry.2 ∈ piece.newSide :=
        List.mem_map_of_mem (List.mem_filter.mpr ⟨inside, decide_eq_true deletion⟩)
      exact FileLine.plain_of_unbroken
        (whole _ (mem_versionLines.mpr (Or.inl ⟨piece, isPiece, Or.inr isNew⟩)))
  refine ⟨pieces, fun line member => ?_⟩
  rcases mem_versionLines.mp member with ⟨piece, isPiece, gap | side⟩ | tail
  · exact FileLine.plain_of_unbroken
      (whole _ (mem_versionLines.mpr (Or.inl ⟨piece, isPiece, Or.inl gap⟩)))
  · obtain ⟨entry, inside, rfl⟩ := List.mem_map.mp side
    exact (pieces piece isPiece).2 entry (List.mem_filter.mp inside).1
  · exact FileLine.plain_of_unbroken (whole _ (mem_versionLines.mpr (Or.inr tail)))

theorem applied_eq
    (env : DigitEnv)
    (pieces : ∀ piece ∈ diff.pieces, piece.Plain)
    (old : ∀ line ∈ diff.oldLines, line.Plain) :
    (((parseUnifiedDiff env (String.ofList diff.text)).lookup diff.path).bind
        (applyHunks (String.ofList (fileText diff.oldLines)))) =
      (Placement.placed none (diff.pieces.map DiffPiece.placement)
        (diff.tail.map FileLine.stem)).map (joined diff.addsNewline) := by
  have split : splitLines (String.ofList (fileText diff.oldLines)) =
      diff.oldLines.map FileLine.stem := by
    rw [splitLines, String.toList_ofList]
    exact splitLinesFrom_fileText diff.oldEnded old
  have applied := @applyFrom_reportHunks (diff.oldLines.map FileLine.stem) [] none diff.pieces
    diff.tail rfl
  rw [parseUnifiedDiff_text env pieces, List.lookup_cons_self, Option.bind_some, applyHunks, split]
  refine (congrArg _ applied).trans ?_
  congr 1
  funext result
  rw [joined, addsNewline, String.toList_ofList]
  cases (reportHunks 0 diff.pieces).any (·.newNoNewline) with
  | true => simp
  | false =>
      by_cases ends : (fileText diff.oldLines).getLast? = some '\n' ∨
          (reportHunks 0 diff.pieces).any (·.oldNoNewline) = true
      · rw [if_neg Bool.false_ne_true, if_pos ends]
        rw [← decide_eq_true_iff (p := _ = _), ← Bool.or_eq_true] at ends
        rw [ends]
        rfl
      · rw [if_neg Bool.false_ne_true, if_neg ends]
        rw [← decide_eq_true_iff (p := _ = _), ← Bool.or_eq_true, Bool.not_eq_true] at ends
        rw [ends]
        exact (List.append_nil _).symm

theorem expected_placements
    (pieces : List DiffPiece)
    (tail : List FileLine) :
    Placement.expected (pieces.map DiffPiece.placement) (tail.map FileLine.stem) =
      (versionLines DiffPiece.newSide pieces tail).map FileLine.stem := by
  induction pieces with
  | nil => rfl
  | cons piece rest ih =>
      rw [List.map_cons, Placement.expected_cons, ih, versionLines_cons,
        List.map_append, List.map_append]
      rfl

variable {written : List (List Char)}

theorem oldLines_ne_nil_of_placed
    (isWritten : Placement.placed none (diff.pieces.map DiffPiece.placement)
      (diff.tail.map FileLine.stem) = some written) :
    diff.oldLines ≠ [] := by
  intro empty
  rw [oldLines] at empty
  cases same : diff.pieces with
  | nil => exact diff.filled same
  | cons piece rest =>
      rw [same, versionLines_cons] at empty
      obtain ⟨noGap, others⟩ := List.append_eq_nil_iff.mp empty
      have noSide := (List.append_eq_nil_iff.mp others).1
      rw [same, List.map_cons, Placement.placed, DiffPiece.placement, noGap, noSide] at isWritten
      cases isWritten

theorem whole_of_placed
    (env : DigitEnv)
    (pieces : ∀ piece ∈ diff.pieces, piece.Plain)
    (old : ∀ line ∈ diff.oldLines, line.Plain)
    (isWritten : Placement.placed none (diff.pieces.map DiffPiece.placement)
      (diff.tail.map FileLine.stem) = some written) :
    ∀ line ∈ written, '\n' ∉ line := by
  have applied := @applyFrom_reportHunks (diff.oldLines.map FileLine.stem) [] none diff.pieces
    diff.tail rfl
  have read : (parseUnifiedDiff env (String.ofList diff.text)).lookup diff.path =
      some (reportHunks 0 diff.pieces) := by
    rw [parseUnifiedDiff_text env pieces, List.lookup_cons_self]
  have wholeOld : ∀ line ∈ diff.oldLines.map FileLine.stem, unbroken line = true := by
    intro line member
    obtain ⟨other, isLine, rfl⟩ := List.mem_map.mp member
    exact old other isLine
  have whole := unbroken_of_mem_applyFrom wholeOld (whole_parseUnifiedDiff env read)
    (applied.trans isWritten)
  intro line member feed
  have inside := List.all_eq_true.mp (whole line member) '\n' feed
  exact absurd inside (by decide)

/-- The diff is reproduced exactly when only line feeds end the lines of the new version and
its hunks without an old side add copies of the line before them. -/
theorem report_reproduces_iff
    (env : DigitEnv)
    (diff : FileDiff)
    (plain : ∀ piece ∈ diff.pieces, piece.PlainDeletions) :
    diff.Reproduces env ↔
      diff.newLines ≠ [] ∧ (∀ line ∈ diff.newLines, unbroken line.text = true) ∧
        diff.InsertsOnlyCopies := by
  by_cases whole : ∀ line ∈ diff.newLines, unbroken line.text = true
  · obtain ⟨pieces, old⟩ := plain_of_unbroken plain whole
    have stems : diff.newLines.map FileLine.stem = diff.newLines.map (·.text) :=
      List.map_congr_left fun line member => FileLine.stem_of_unbroken (whole line member)
    have expected := expected_placements diff.pieces diff.tail
    have placedIff := @Placement.placed_eq_iff _ (diff.tail.map FileLine.stem)
      (diff.pieces.map DiffPiece.placement) none
    rw [Option.toList_none, List.nil_append, expected] at placedIff
    rw [Reproduces, applied_eq env pieces old, InsertsOnlyCopies, ← placedIff]
    change _ ↔ _ ∧ _ ∧ _ = some (diff.newLines.map FileLine.stem)
    cases isWritten : Placement.placed none (diff.pieces.map DiffPiece.placement)
        (diff.tail.map FileLine.stem) with
    | none => simp
    | some written =>
        have size := Placement.length_placed isWritten
        have ends := diff.addsNewline_iff (oldLines_ne_nil_of_placed isWritten)
        rw [Option.toList_none, List.nil_append, expected] at size
        change written.length = (diff.newLines.map FileLine.stem).length at size
        have decided : diff.addsNewline = diff.newLines.all (·.ended) := by
          rw [Bool.eq_iff_iff, ends, List.all_eq_true]
        rw [Option.map_some, Option.some.injEq, Option.some.injEq, decided]
        by_cases filled : diff.newLines = []
        · have nothing : written = [] := by
            rw [filled] at size
            exact List.length_eq_zero_iff.mp size
          rw [filled, nothing]
          simp [joined, fileText]
        · have newText : fileText diff.newLines =
              joined (diff.newLines.all (·.ended)) (diff.newLines.map FileLine.stem) := by
            rw [stems]
            exact fileText_eq_joined diff.newEnded filled
          rw [newText]
          have wholeNew : ∀ line ∈ diff.newLines.map FileLine.stem, '\n' ∉ line := by
            rw [stems]
            intro line member
            obtain ⟨other, _, rfl⟩ := List.mem_map.mp member
            exact other.whole
          have written_ne_nil : written ≠ [] := by
            rw [← List.length_pos_iff, size, List.length_map]
            exact List.length_pos_of_ne_nil filled
          constructor
          · intro same
            exact ⟨filled, whole, (joined_inj (whole_of_placed env pieces old isWritten) wholeNew
              written_ne_nil size same).2⟩
          · rintro ⟨_, _, same⟩
            rw [same]
  · exact iff_of_false (fun reproduces => whole (unbroken_of_reproduces reproduces))
      fun all => whole all.2.1

end FileDiff

namespace ReportSample

def env : DigitEnv :=
  ⟨fun _ => none⟩

def line (text : String) (whole : '\n' ∉ text.toList := by decide) : FileLine :=
  ⟨text.toList, whole, true⟩

theorem wellEnded_of_ended
    {lines : List FileLine}
    (all : ∀ line ∈ lines, line.ended = true) :
    WellEnded lines := by
  intro front other back same missing
  have ends := all other (by rw [same]; exact List.mem_append_right front List.mem_cons_self)
  rw [missing] at ends
  cases ends

/-- The carriage return of the first line is removed. -/
def unified : FileDiff where
  oldName := "a/src/x.cpp".toList
  newName := "b/src/x.cpp".toList
  wholeNames := by decide
  named := by decide
  pieces :=
    [{ gap := []
       body := [(.deletion, line "a\r"), (.addition, line "a"), (.context, line "b")]
       changes := ⟨_, List.mem_cons_self, by decide⟩
       wholeSection := noSection }]
  filled := List.cons_ne_nil _ _
  tail := []
  oldEnded := wellEnded_of_ended (by decide)
  newEnded := wellEnded_of_ended (by decide)

theorem whole_x : '\n' ∉ "x".toList := by
  decide

/-- A line is inserted behind the first one, without context. -/
def inserted : FileDiff where
  oldName := "a/src/x.cpp".toList
  newName := "b/src/x.cpp".toList
  wholeNames := by decide
  named := by decide +kernel
  pieces :=
    [{ gap := [line "a"]
       body := [(.addition, line "x" whole_x)]
       changes := ⟨_, List.mem_cons_self, by decide⟩
       leaveOut2 := true
       wholeSection := noSection }]
  filled := List.cons_ne_nil _ _
  tail := [line "b"]
  oldEnded := wellEnded_of_ended (by decide)
  newEnded := wellEnded_of_ended (by decide)

end ReportSample

theorem unified_report_is_reproduced :
    fileText ReportSample.unified.oldLines = "a\r\nb\n".toList ∧
      fileText ReportSample.unified.newLines = "a\nb\n".toList ∧
        ReportSample.unified.Reproduces ReportSample.env := by
  have lines : ReportSample.unified.newLines = [ReportSample.line "a", ReportSample.line "b"] :=
    rfl
  have plain : ∀ piece ∈ ReportSample.unified.pieces, piece.PlainDeletions := by
    intro piece isPiece
    rw [List.mem_singleton.mp isPiece]
    refine ⟨rfl, fun entry inside deletion => ?_⟩
    rcases List.mem_cons.mp inside with rfl | inside
    · rfl
    · rcases List.mem_cons.mp inside with rfl | inside
      · cases deletion
      · rw [List.mem_singleton.mp inside] at deletion
        cases deletion
  have reproduces := FileDiff.report_reproduces_iff ReportSample.env ReportSample.unified plain
  refine ⟨by decide +kernel, by decide +kernel, reproduces.mpr ⟨?_, ?_, ?_⟩⟩
  · rw [lines]
    exact List.cons_ne_nil _ _
  · rw [lines]
    decide
  · trivial

/-- The insertion lands one line early. -/
theorem insertion_lands_early :
    ReportSample.inserted.text =
        "--- a/src/x.cpp\n+++ b/src/x.cpp\n@@ -1,0 +2 @@\n+x\n".toList ∧
      fileText ReportSample.inserted.oldLines = "a\nb\n".toList ∧
      fileText ReportSample.inserted.newLines = "a\nx\nb\n".toList ∧
      ((parseUnifiedDiff ReportSample.env (String.ofList ReportSample.inserted.text)).lookup
          ReportSample.inserted.path).bind
        (applyHunks (String.ofList (fileText ReportSample.inserted.oldLines))) =
          some "x\na\nb\n".toList ∧
      ¬ ReportSample.inserted.Reproduces ReportSample.env := by
  have applied : ((parseUnifiedDiff ReportSample.env
      (String.ofList ReportSample.inserted.text)).lookup ReportSample.inserted.path).bind
        (applyHunks (String.ofList (fileText ReportSample.inserted.oldLines))) =
          some "x\na\nb\n".toList := by
    decide +kernel
  refine ⟨by decide +kernel, by decide +kernel, by decide +kernel, applied, ?_⟩
  rw [FileDiff.Reproduces, applied]
  decide +kernel

end MrAgent
