import MrAgent.NumberedRoundTrip

namespace MrAgent

/-!
# Numbered hunks are read back

What is read was written, whatever the patch holds: a line that was broken or
skipped is never read back. Together with what is stripped this decides when all
lines of the new side are read back.
-/

/-! ## The phrase of the marker -/

theorem infix_of_infix_separated
    {text front back : List Char}
    {c : Char}
    (apart : c ∉ text)
    (inside : text <:+: front ++ c :: back) :
    text <:+: front ∨ text <:+: back := by
  have start : ∀ part : List Char, part ≠ [] → part <+: c :: back → c ∈ part := by
    intro part filled isPrefix
    cases part with
    | nil => exact absurd rfl filled
    | cons d rest =>
        rw [(List.cons_prefix_cons.mp isPrefix).1]
        exact List.mem_cons_self
  rcases List.infix_append_iff_ne_nil.mp inside with left | right |
    ⟨first, second, _, filled, same, _, isPrefix⟩
  · exact Or.inl left
  · rcases List.infix_cons_iff.mp right with isPrefix | later
    · by_cases empty : text = []
      · rw [empty]
        exact Or.inl List.nil_infix
      · exact absurd (start text empty isPrefix) apart
    · exact Or.inr later
  · refine absurd (start second filled isPrefix) fun member => apart ?_
    rw [same]
    exact List.mem_append_right first member

/-- A text does not hold the phrase of the marker. -/
def PhraseFree (text : List Char) : Prop :=
  isNoNewlineLine text = false

section PhraseFree

variable {text other : List Char}

theorem unmarked_iff :
    PhraseFree text ↔ ¬ "no newline at end of file".toList <:+: text.map Char.toLower := by
  unfold PhraseFree isNoNewlineLine
  exact decide_eq_false_iff_not

theorem PhraseFree.of_isInfix
    (unmarked : PhraseFree text)
    (inside : other <:+: text) :
    PhraseFree other := by
  rw [unmarked_iff] at unmarked ⊢
  exact fun found => unmarked (found.trans (inside.map _))

variable {c : Char}

theorem PhraseFree.separated
    (apart : Char.toLower c ∉ "no newline at end of file".toList)
    (front : PhraseFree text)
    (back : PhraseFree other) :
    PhraseFree (text ++ c :: other) := by
  rw [unmarked_iff] at front back ⊢
  intro found
  rw [List.map_append, List.map_cons] at found
  rcases infix_of_infix_separated apart found with left | right
  · exact front left
  · exact back right

theorem toLower_ne_n
    (digit : c.isDigit = true) :
    Char.toLower c ≠ 'n' := by
  have kept : Char.toLower c = c := by
    rw [Char.toLower, dif_neg]
    rintro ⟨upper, _⟩
    rw [Char.isDigit, Bool.and_eq_true, decide_eq_true_iff, decide_eq_true_iff] at digit
    have low : (65 : Nat) ≤ c.toNat := upper
    have high : c.toNat ≤ 57 := digit.2
    omega
  rw [kept]
  rintro rfl
  cases digit

theorem toLower_intText
    {number : Int}
    (member : c ∈ intText number) :
    Char.toLower c ≠ 'n' := by
  have digits : ∀ value : Nat, c ∈ Nat.toDigits 10 value → Char.toLower c ≠ 'n' :=
    fun value digit => toLower_ne_n (Nat.isDigit_of_mem_toDigits (by decide) (by decide) digit)
  cases number with
  | ofNat value =>
      change c ∈ intText (value : Int) at member
      rw [intText_ofNat] at member
      exact digits value member
  | negSucc value =>
      rw [intText_negSucc] at member
      rcases List.mem_cons.mp member with rfl | digit
      · decide
      · exact digits _ digit

theorem PhraseFree.behind
    (unmarked : PhraseFree other)
    (apart : 'n' ∉ text.map Char.toLower) :
    PhraseFree (text ++ other) := by
  rw [unmarked_iff] at unmarked ⊢
  rw [List.map_append]
  intro found
  rcases List.infix_append_iff_ne_nil.mp found with left | right |
    ⟨first, second, filled, _, same, isSuffix, _⟩
  · exact apart (left.subset List.mem_cons_self)
  · exact unmarked right
  · cases first with
    | nil => exact absurd rfl filled
    | cons c rest =>
        have head : c = 'n' := (List.cons.inj same).1.symm
        rw [head] at isSuffix
        exact apart (isSuffix.subset List.mem_cons_self)

theorem PhraseFree.numbered
    {entry : Int × List Char}
    (unmarked : PhraseFree entry.2) :
    PhraseFree (numberedLine entry) := by
  have apart : 'n' ∉ (intText entry.1 ++ [' ']).map Char.toLower := by
    intro member
    obtain ⟨c, inside, lower⟩ := List.mem_map.mp member
    rcases List.mem_append.mp inside with number | space
    · exact toLower_intText number lower
    · rw [List.mem_singleton.mp space] at lower
      exact absurd lower (by decide)
  have split : numberedLine entry = (intText entry.1 ++ [' ']) ++ entry.2 := by
    rw [numberedLine, List.append_assoc]
    rfl
  rw [split]
  exact unmarked.behind apart

theorem unmarked_withFeeds
    {lines : List (List Char)}
    (unmarked : ∀ line ∈ lines, PhraseFree line) :
    PhraseFree (withFeeds lines) := by
  induction lines with
  | nil => exact rfl
  | cons line rest ih =>
      obtain ⟨here, further⟩ := List.forall_mem_cons.mp unmarked
      rw [withFeeds_cons]
      exact here.separated (by decide) (ih further)

end PhraseFree

namespace NumberedHunk

/-- What a hunk holds is unmarked. -/
structure IsUnmarked (hunk : NumberedHunk) : Prop where
  header : PhraseFree hunk.header
  newLines : ∀ entry ∈ hunk.newLines, PhraseFree entry.2
  oldLines : ∀ line ∈ hunk.oldLines, PhraseFree line

variable {hunk : NumberedHunk} {text : List Char}

theorem unmarked_numbers
    (unmarked : hunk.IsUnmarked) :
    PhraseFree (hunk.newLines.flatMap fun entry =>
      intText entry.1 ++ ' ' :: entry.2 ++ ['\n']) := by
  have lines : ∀ line ∈ hunk.newLines.map numberedLine, PhraseFree line := by
    intro line member
    obtain ⟨entry, inside, rfl⟩ := List.mem_map.mp member
    exact (unmarked.newLines entry inside).numbered
  have all := unmarked_withFeeds lines
  rw [withFeeds, List.flatMap_map] at all
  exact all

theorem unmarked_place
    {name behind : List Char}
    (before : PhraseFree text)
    (title : PhraseFree name)
    (after : PhraseFree behind) :
    PhraseFree (rstrip text ++ ('\n' :: (name ++ ['\n'])) ++ behind) := by
  have stripped := before.of_isInfix (rstrip_isPrefix text).isInfix
  have feed : Char.toLower '\n' ∉ "no newline at end of file".toList := by decide
  have joined := stripped.separated feed (title.separated feed after)
  simpa using joined

theorem unmarked_append
    (unmarked : hunk.IsUnmarked)
    (before : PhraseFree text) :
    PhraseFree (hunk.append text) := by
  have new : "\n__new hunk__\n".toList = '\n' :: ("__new hunk__".toList ++ ['\n']) := by decide
  have old : "\n__old hunk__\n".toList = '\n' :: ("__old hunk__".toList ++ ['\n']) := by decide
  have newTitle : PhraseFree "__new hunk__".toList := by
    unfold PhraseFree
    decide
  have oldTitle : PhraseFree "__old hunk__".toList := by
    unfold PhraseFree
    decide
  have lines : ∀ text, PhraseFree text → PhraseFree (hunk.appendLines text) := by
    intro text before
    have withNew : PhraseFree (if hunk.newLines = [] ∧ hunk.oldLines = [] then text
        else rstrip text ++ "\n__new hunk__\n".toList ++
          hunk.newLines.flatMap fun entry => intText entry.1 ++ ' ' :: entry.2 ++ ['\n']) := by
      split
      · exact before
      · rw [new]
        exact unmarked_place before newTitle (unmarked_numbers unmarked)
    rw [appendLines]
    split
    · exact withNew
    · rw [old]
      exact unmarked_place withNew oldTitle (unmarked_withFeeds unmarked.oldLines)
  rw [append]
  split
  · exact lines text before
  · have empty : PhraseFree [] := rfl
    have feed : Char.toLower '\n' ∉ "no newline at end of file".toList := by decide
    have headed := before.separated feed (unmarked.header.separated feed empty)
    rw [List.append_assoc]
    exact lines _ headed

end NumberedHunk

theorem infix_strip
    (text : List Char) :
    strip text <:+: text := by
  rw [strip_eq_rdropWhile]
  exact (List.rdropWhile_prefix ..).isInfix.trans (List.dropWhile_suffix _).isInfix

theorem unmarked_writtenText
    {file : Option PatchFile}
    (present : ∀ info ∈ file, info.editType ≠ .deleted)
    (named : ∀ info ∈ file, PhraseFree info.filename.toList)
    {hunks : List NumberedHunk}
    (unmarked : ∀ hunk ∈ hunks, hunk.IsUnmarked) :
    PhraseFree (writtenText file hunks) := by
  have kept : file.filter (·.editType = .deleted) = none := by
    rw [Option.filter_eq_none_iff]
    intro info isFile deleted
    exact present info isFile (of_decide_eq_true deleted)
  have empty : PhraseFree [] := rfl
  have header : PhraseFree (fileHeader file) := by
    rw [fileHeader_eq]
    refine unmarked_withFeeds fun line member => ?_
    cases file with
    | none => cases member
    | some info =>
        rcases List.mem_cons.mp member with rfl | member
        · exact empty
        · rcases List.mem_cons.mp member with rfl | member
          · exact empty
          · have apart : 'n' ∉ "## File: '".toList.map Char.toLower := by decide
            have quote : Char.toLower '\'' ∉ "no newline at end of file".toList := by decide
            have name : PhraseFree (strip info.filename.toList) :=
              (named info rfl).of_isInfix (infix_strip _)
            rw [List.mem_singleton.mp member, List.append_assoc]
            exact (name.separated quote empty).behind apart
  have all : ∀ text, PhraseFree text → PhraseFree (hunks.foldl NumberedHunk.append text) := by
    induction hunks with
    | nil => exact fun _ unmarkedText => unmarkedText
    | cons hunk rest ih =>
        obtain ⟨here, further⟩ := List.forall_mem_cons.mp unmarked
        exact fun text before => ih further _
          (NumberedHunk.unmarked_append here before)
  rw [writtenText, kept]
  exact (all _ header).of_isInfix (rstrip_isPrefix _).isInfix

/-! ## What is read was written -/

theorem infix_of_mem_splitLinesFrom
    {start text line : List Char}
    (member : line ∈ splitLinesFrom start text) :
    line <:+: start.reverse ++ text := by
  induction start, text using splitLinesFrom.induct with
  | case1 => cases member
  | case2 start filled =>
      rw [splitLinesFrom] at member
      · rw [List.mem_singleton.mp member, List.append_nil]
      · exact filled
  | case3 start rest ih =>
      rw [splitLinesFrom] at member
      rcases List.mem_cons.mp member with rfl | later
      · exact List.infix_append_left
      · have inside := ih later
        exact inside.trans ((List.suffix_append (start.reverse ++ ['\r', '\n']) rest).isInfix.trans
          (by simp))
  | case4 start c rest notPair broken ih =>
      rw [splitLinesFrom, if_pos broken] at member
      · rcases List.mem_cons.mp member with rfl | later
        · exact List.infix_append_left
        · have inside := ih later
          exact inside.trans ((List.suffix_append (start.reverse ++ [c]) rest).isInfix.trans
            (by simp))
      · exact notPair
  | case5 start c rest notPair whole ih =>
      rw [splitLinesFrom, if_neg whole] at member
      · have inside := ih member
        simpa using inside
      · exact notPair

theorem suffix_of_matchNewHunkLine
    {env : DigitEnv}
    {line : List Char}
    {pair : Nat × List Char}
    (matched : env.matchNewHunkLine line = some pair) :
    pair.2 <:+ line := by
  rw [DigitEnv.matchNewHunkLine] at matched
  split at matched
  · rename_i digits sign content taken
    split at matched
    · cases matched
      rw [DigitEnv.takeDigits] at taken
      split at taken
      · cases taken
      · have parts := Prod.mk.inj (Option.some.inj taken)
        have isSuffix : content <:+ ' ' :: sign :: content :=
          (List.suffix_cons sign content).trans (List.suffix_cons ' ' _)
        exact isSuffix.trans (parts.2 ▸ List.drop_suffix _ _)
    · cases matched
  · cases matched

namespace BlockReading

/-- All pairs that have been read. -/
def AllPairs (holds : Nat × List Char → Prop) (reading : BlockReading) : Prop :=
  ∀ block ∈ reading.close, ∀ pair ∈ block, holds pair

theorem allPairs_step
    {env : DigitEnv}
    {holds : Nat × List Char → Prop}
    {reading : BlockReading}
    (before : reading.AllPairs holds)
    {line : List Char}
    (here : ∀ pair, env.matchNewHunkLine line = some pair → holds pair) :
    (reading.step env line).AllPairs holds := by
  have closed : ∀ current : Option HunkBlock, (∀ block ∈ current, block = []) →
      AllPairs holds { complete := reading.close, current } := by
    intro current empty block member
    rcases List.mem_append.mp member with earlier | last
    · exact before block earlier
    · rw [empty block (Option.mem_toList.mp last)]
      exact fun _ inside => absurd inside List.not_mem_nil
  rw [step]
  split
  · exact closed (some []) fun _ found => (Option.some.inj found).symm
  · split
    · exact closed none fun _ found => by cases found
    · split
      · exact closed none fun _ found => by cases found
      · intro block member
        rcases List.mem_append.mp member with earlier | last
        · exact before block (List.mem_append_left _ earlier)
        · obtain ⟨current, isCurrent, rfl⟩ := Option.map_eq_some_iff.mp (Option.mem_toList.mp last)
          intro pair inside
          rcases List.mem_append.mp inside with old | new
          · refine before current (List.mem_append_right _ ?_) pair old
            rw [isCurrent]
            exact List.mem_singleton_self current
          · exact here pair (Option.mem_toList.mp new)

theorem allPairs_foldl
    {env : DigitEnv}
    {holds : Nat × List Char → Prop}
    {lines : List (List Char)}
    (here : ∀ line ∈ lines, ∀ pair, env.matchNewHunkLine line = some pair → holds pair)
    {reading : BlockReading}
    (before : reading.AllPairs holds) :
    (lines.foldl (step env) reading).AllPairs holds := by
  induction lines generalizing reading with
  | nil => exact before
  | cons line rest ih =>
      obtain ⟨first, further⟩ := List.forall_mem_cons.mp here
      exact ih further (allPairs_step before first)

end BlockReading

theorem exists_line_of_mem_block
    {env : DigitEnv}
    {text : List Char}
    {block : HunkBlock}
    (isBlock : block ∈ extractNewHunkBlocks env text)
    {pair : Nat × List Char}
    (member : pair ∈ block) :
    ∃ line ∈ splitLinesFrom [] text, pair.2 <:+ line := by
  have begun : BlockReading.AllPairs
      (fun pair => ∃ line ∈ splitLinesFrom [] text, pair.2 <:+ line) {} :=
    fun _ inside => absurd inside List.not_mem_nil
  have read := @BlockReading.allPairs_foldl env _ _
    (fun line inside pair matched => ⟨line, inside, suffix_of_matchNewHunkLine matched⟩) _ begun
  exact read block (List.mem_filter.mp isBlock).1 pair member

/-! ## The condition -/

/-- The name of the file, the headers and the deleted lines are whole and unmarked. -/
structure PlainFrame (file : Option PatchFile) (hunks : List UnifiedHunk) : Prop where
  named : ∀ info ∈ file, unbroken info.filename.toList = true ∧ PhraseFree info.filename.toList
  headers : ∀ hunk ∈ hunks, unbroken hunk.header = true ∧ PhraseFree hunk.header
  deletions : ∀ hunk ∈ hunks, ∀ entry ∈ hunk.body, entry.kind = .deletion →
    unbroken entry.line = true ∧ PhraseFree entry.line

/-- When the new side is read back. -/
structure ReadsBack (file : Option PatchFile) (hunks : List UnifiedHunk) : Prop where
  present : ∀ info ∈ file, info.editType = .deleted → ∀ hunk ∈ hunks, hunk.newSide = []
  plain : ∀ hunk ∈ hunks, ∀ line ∈ hunk.newSide, unbroken line = true ∧ PhraseFree line
  beforeOldSide : ∀ hunk ∈ hunks, hunk.Deletes → hunk.EndsClean
  atTheEnd : ∀ last ∈ (writtenPart hunks).getLast?, last.EndsClean

/-- The blocks that are read from the converted patch are those of its hunks. -/
def Recovers
    (env : DigitEnv)
    (file : Option PatchFile)
    (hunks : List UnifiedHunk)
    (final : Bool)
    (ends : Nat → Bool) : Prop :=
  (decoupleAndConvertToHunksWithLinesNumbers env (patchOf final ends hunks) file).map
    (extractNewHunkBlocks env) = some (expectedBlocks hunks)

section Condition

variable {env : DigitEnv} {file : Option PatchFile} {hunks : List UnifiedHunk} {final : Bool}
  {ends : Nat → Bool}

theorem plain_ownLines
    (frame : PlainFrame file hunks)
    (plain : ∀ hunk ∈ hunks, ∀ line ∈ hunk.newSide, unbroken line = true ∧ PhraseFree line) :
    ∀ hunk ∈ hunks, ∀ line ∈ hunk.ownLines, unbroken line = true ∧ PhraseFree line := by
  intro hunk isHunk line member
  rcases List.mem_cons.mp member with rfl | inBody
  · exact frame.headers hunk isHunk
  · obtain ⟨entry, inside, rfl⟩ := List.mem_map.mp inBody
    by_cases deletion : entry.kind = .deletion
    · exact frame.deletions hunk isHunk entry inside deletion
    · exact plain hunk isHunk entry.line
        (List.mem_map_of_mem (List.mem_filter.mpr ⟨inside, decide_eq_true deletion⟩))

theorem newSide_of_unwritten
    {hunk : UnifiedHunk}
    (isHunk : hunk ∈ hunks)
    (unwritten : hunk ∉ writtenPart hunks) :
    hunk.newSide = [] := by
  rw [writtenPart] at unwritten
  split at unwritten
  · rename_i empty
    obtain ⟨front, last, rfl⟩ :=
      (List.eq_nil_or_concat hunks).resolve_left (List.ne_nil_of_mem isHunk)
    rw [List.concat_eq_append] at isHunk unwritten empty
    rw [List.dropLast_concat] at unwritten
    rw [List.getLast?_concat, Option.any_some, decide_eq_true_iff] at empty
    rcases List.mem_append.mp isHunk with inFront | isLast
    · exact absurd inFront unwritten
    · rw [List.mem_singleton.mp isLast]
      exact empty
  · exact absurd isHunk unwritten

theorem recovers_iff_clean
    (present : ∀ info ∈ file, info.editType ≠ .deleted)
    (frame : PlainFrame file hunks)
    (plain : ∀ hunk ∈ hunks, ∀ line ∈ hunk.newSide, unbroken line = true ∧ PhraseFree line) :
    Recovers env file hunks final ends ↔
      (∀ hunk ∈ hunks, hunk.Deletes → hunk.EndsClean) ∧
        ∀ last ∈ (writtenPart hunks).getLast?, last.EndsClean := by
  have own := plain_ownLines frame plain
  have kept : file.filter (·.editType = .deleted) = none := by
    rw [Option.filter_eq_none_iff]
    intro info isFile deleted
    exact present info isFile (of_decide_eq_true deleted)
  have inPart : ∀ hunk ∈ writtenPart hunks, hunk ∈ hunks := by
    rw [writtenPart]
    split
    · exact fun _ member => List.mem_of_mem_dropLast member
    · exact fun _ member => member
  have written : writtenHunks env (patchOf final ends hunks) file =
      some ((writtenPart hunks).map (·.numbered)) := by
    rw [writtenHunks, kept]
    dsimp only
    rw [splitLines_patchOf fun hunk isHunk line member => (own hunk isHunk line member).1,
      close_run_hunks env fun hunk isHunk line member => (own hunk isHunk line member).2,
      writtenPart]
    split <;> rfl
  have well : ∀ hunk ∈ (writtenPart hunks).map (·.numbered), WellWritten env hunk := by
    intro hunk member
    obtain ⟨source, inside, rfl⟩ := List.mem_map.mp member
    exact source.wellWritten env fun line isLine => (own source (inPart source inside) line isLine).1
  have read := extractNewHunkBlocks_writtenText present
    (fun info isFile => (frame.named info isFile).1) well
  have expected : expectedBlocks hunks = (((writtenPart hunks).map (·.numbered)).map
      fun hunk => hunk.newLines.map pairOf).filter (· ≠ []) := by
    rw [← expectedBlocks_writtenPart, expectedBlocks, List.map_map]
    congr 1
    exact List.map_congr_left fun hunk _ => newSidePairs_eq hunk.start2 hunk.body
  have others : (∀ hunk ∈ writtenPart hunks, hunk.Deletes → hunk.EndsClean) ↔
      ∀ hunk ∈ hunks, hunk.Deletes → hunk.EndsClean := by
    refine ⟨fun clean hunk isHunk => ?_, fun clean hunk inside => clean hunk (inPart hunk inside)⟩
    by_cases inside : hunk ∈ writtenPart hunks
    · exact clean hunk inside
    · intro _ line isLast
      have empty : hunk.newSide = [] := newSide_of_unwritten isHunk inside
      rw [empty] at isLast
      cases isLast
  rw [Recovers, decouple_eq, written, Option.map_some, Option.map_some, Option.some.injEq, read,
    expected, filter_eq_filter_iff (readBlocks_shorter _), readBlocks_eq_iff, others]

theorem plain_line
    {entry : HunkLine}
    (whole : unbroken entry.content.text = true)
    (unmarked : PhraseFree entry.content.text) :
    unbroken entry.line = true ∧ PhraseFree entry.line := by
  have sign : 'n' ∉ [entry.kind.sign].map Char.toLower := by
    cases entry.kind <;> decide
  have signed : entry.line = [entry.kind.sign] ++ entry.content.text := rfl
  constructor
  · rw [signed, unbroken_append, unbroken_sign, whole]
    rfl
  · rw [signed]
    exact unmarked.behind sign

theorem mem_newSidePairs
    {number : Nat}
    {body : List HunkLine}
    {entry : HunkLine}
    (member : entry ∈ body)
    (new : entry.kind ≠ .deletion) :
    ∃ pair ∈ newSidePairs number body, pair.2 = entry.content.text := by
  induction body generalizing number with
  | nil => cases member
  | cons first rest ih =>
      rw [newSidePairs]
      rcases List.mem_cons.mp member with rfl | later
      · cases kind : entry.kind with
        | deletion => exact absurd kind new
        | context => exact ⟨_, List.mem_cons_self, rfl⟩
        | addition => exact ⟨_, List.mem_cons_self, rfl⟩
      · cases first.kind with
        | deletion => exact ih later
        | context =>
            obtain ⟨pair, inside, same⟩ := ih later
            exact ⟨pair, List.mem_cons_of_mem _ inside, same⟩
        | addition =>
            obtain ⟨pair, inside, same⟩ := ih later
            exact ⟨pair, List.mem_cons_of_mem _ inside, same⟩

theorem plain_of_recovers
    (present : ∀ info ∈ file, info.editType ≠ .deleted)
    (frame : PlainFrame file hunks)
    (recovers : Recovers env file hunks final ends) :
    ∀ hunk ∈ hunks, ∀ line ∈ hunk.newSide, unbroken line = true ∧ PhraseFree line := by
  rw [Recovers, decouple_eq, Option.map_map] at recovers
  obtain ⟨written, isWritten, read⟩ := Option.map_eq_some_iff.mp recovers
  dsimp only [Function.comp_apply] at read
  have kept : file.filter (·.editType = .deleted) = none := by
    rw [Option.filter_eq_none_iff]
    intro info isFile deleted
    exact present info isFile (of_decide_eq_true deleted)
  have unmarked : ∀ hunk ∈ written, hunk.IsUnmarked := by
    rw [writtenHunks, kept] at isWritten
    obtain ⟨scan, finished, rfl⟩ := Option.map_eq_some_iff.mp isWritten
    have begun : HunkScan.ScanFrom (splitLines (patchOf final ends hunks)) {} :=
      ⟨fun _ member => absurd member List.not_mem_nil, Or.inl rfl,
        fun _ member => absurd member List.not_mem_nil,
        fun _ member => absurd member List.not_mem_nil⟩
    intro hunk isHunk
    have from_ := (begun.run (fun _ member => member) finished).close hunk isHunk
    refine ⟨?_, fun entry inside => (from_.newLines entry inside).2,
      fun line inside => (from_.oldLines line inside).2⟩
    rcases from_.header with empty | header
    · rw [empty]
      exact rfl
    · exact header.2
  have text := unmarked_writtenText present (fun info isFile => (frame.named info isFile).2) unmarked
  intro hunk isHunk line member
  obtain ⟨entry, inside, rfl⟩ := List.mem_map.mp member
  obtain ⟨inBody, new⟩ := List.mem_filter.mp inside
  obtain ⟨pair, isPair, same⟩ :=
    @mem_newSidePairs hunk.start2 _ _ inBody (of_decide_eq_true new)
  have isBlock : newSidePairs hunk.start2 hunk.body ∈
      extractNewHunkBlocks env (writtenText file written) := by
    rw [read]
    exact List.mem_filter.mpr ⟨List.mem_map_of_mem isHunk,
      decide_eq_true (List.ne_nil_of_mem isPair)⟩
  obtain ⟨source, isSource, isSuffix⟩ := exists_line_of_mem_block isBlock isPair
  rw [same] at isSuffix
  refine plain_line ?_ ?_
  · have whole := unbroken_of_mem_splitLinesFrom rfl isSource
    rw [unbroken, List.all_eq_true] at whole ⊢
    exact fun c found => whole c (isSuffix.subset found)
  · have inText := infix_of_mem_splitLinesFrom isSource
    exact (text.of_isInfix inText).of_isInfix isSuffix.isInfix

theorem extractNewHunkBlocks_deleted
    (env : DigitEnv)
    {name : List Char}
    (whole : unbroken name = true) :
    extractNewHunkBlocks env
      ("\n\n## File '".toList ++ strip name ++ "' was deleted\n".toList) = [] := by
  have three : ∀ start behind name title tail : List Char, start = '\n' :: '\n' :: title →
      behind = tail ++ ['\n'] → start ++ name ++ behind =
        withFeeds [[], [], title ++ name ++ tail] := by
    rintro _ _ name title tail rfl rfl
    simp [withFeeds]
  have start : "\n\n## File '".toList = '\n' :: '\n' :: "## File '".toList := by decide
  have behind : "' was deleted\n".toList = "' was deleted".toList ++ ['\n'] := by decide
  have title : unbroken "## File '".toList = true := by decide
  have tail : unbroken "' was deleted".toList = true := by decide
  have wholeName : unbroken (strip name) = true := by
    rw [unbroken, List.all_eq_true]
    exact fun c inside => List.all_eq_true.mp whole c (mem_of_mem_strip inside)
  have plain : ∀ line ∈ [[], [], "## File '".toList ++ strip name ++ "' was deleted".toList],
      env.Silent line ∧ unbroken line = true := by
    have empty : env.Silent [] ∧ unbroken [] = true := ⟨fun _ found => (by cases found), rfl⟩
    intro line member
    rcases List.mem_cons.mp member with rfl | member
    · exact empty
    · rcases List.mem_cons.mp member with rfl | member
      · exact empty
      · rw [List.mem_singleton.mp member]
        refine ⟨fun c found => (by cases found; rfl), ?_⟩
        rw [unbroken_append, unbroken_append, title, wholeName, tail]
        rfl
  have lines := splitLinesFrom_withFeeds (fun line member => (plain line member).2) []
  rw [List.append_nil] at lines
  rw [extractNewHunkBlocks, three _ _ _ _ _ start behind, lines]
  change BlockReading.found (List.foldl _ _ (_ ++ [])) = _
  rw [List.append_nil, BlockReading.found_foldl fun line member => (plain line member).1]
  rfl

theorem expectedBlocks_eq_nil_iff :
    expectedBlocks hunks = [] ↔ ∀ hunk ∈ hunks, hunk.newSide = [] := by
  have side : ∀ hunk : UnifiedHunk, newSidePairs hunk.start2 hunk.body = [] ↔
      hunk.newSide = [] := by
    intro hunk
    have lines := map_snd_newFileLines hunk.start2 hunk.body
    rw [newSidePairs_eq, List.map_eq_nil_iff, ← List.map_eq_nil_iff (f := (·.2)), lines]
    rfl
  rw [expectedBlocks, List.filter_eq_nil_iff, List.forall_mem_map]
  refine forall₂_congr fun hunk _ => ?_
  rw [← side]
  simp

/--
The new side is read back exactly when its lines are whole and unmarked and none
that is stripped ends with white space.
-/
theorem numbered_hunks_parse_back_iff
    (env : DigitEnv)
    (file : Option PatchFile)
    (hunks : List UnifiedHunk)
    (final : Bool)
    (ends : Nat → Bool)
    (frame : PlainFrame file hunks) :
    Recovers env file hunks final ends ↔ ReadsBack file hunks := by
  by_cases present : ∀ info ∈ file, info.editType ≠ .deleted
  · constructor
    · intro recovers
      have plain := plain_of_recovers present frame recovers
      obtain ⟨clean, last⟩ := (recovers_iff_clean present frame plain).mp recovers
      exact ⟨fun info isFile deleted => absurd deleted (present info isFile), plain, clean, last⟩
    · intro condition
      exact (recovers_iff_clean present frame condition.plain).mpr
        ⟨condition.beforeOldSide, condition.atTheEnd⟩
  · push Not at present
    obtain ⟨info, isFile, deleted⟩ := present
    have removed : file.filter (·.editType = .deleted) = some info :=
      Option.filter_eq_some_iff.mpr ⟨isFile, decide_eq_true deleted⟩
    have recovers : Recovers env file hunks final ends ↔ ∀ hunk ∈ hunks, hunk.newSide = [] := by
      rw [Recovers, decoupleAndConvertToHunksWithLinesNumbers, removed]
      simp only [Option.map_some, Option.some.injEq]
      rw [extractNewHunkBlocks_deleted env (frame.named info isFile).1, eq_comm,
        expectedBlocks_eq_nil_iff]
    rw [recovers]
    constructor
    · intro empty
      have clean : ∀ hunk ∈ hunks, hunk.EndsClean := by
        intro hunk isHunk line isLast
        rw [empty hunk isHunk] at isLast
        cases isLast
      refine ⟨fun _ _ _ => empty, fun hunk isHunk line member => ?_,
        fun hunk isHunk _ => clean hunk isHunk, fun last isLast => clean last ?_⟩
      · rw [empty hunk isHunk] at member
        cases member
      · have inPart := List.mem_of_getLast? isLast
        rw [writtenPart] at inPart
        split at inPart
        · exact List.mem_of_mem_dropLast inPart
        · exact inPart
    · exact fun condition => condition.present info isFile deleted

end Condition

/-- A line is changed between two lines of context. -/
def changedLine : UnifiedHunk where
  start1 := 1
  start2 := 1
  body :=
    [⟨.context, plainText "def f():" (by decide), false⟩,
      ⟨.deletion, plainText "    return 1" (by decide), false⟩,
      ⟨.addition, plainText "    return 2" (by decide), false⟩]
  changes := ⟨_, List.mem_cons_of_mem _ List.mem_cons_self, by decide⟩

theorem oneLine_a : '\n' ∉ "a".toList := by
  decide

theorem oneLine_b : '\n' ∉ "b".toList := by
  decide

/-- A line is deleted before an empty one. -/
def lineBeforeEmptyOne : UnifiedHunk where
  start1 := 1
  start2 := 1
  body :=
    [⟨.context, plainText "a" oneLine_a, false⟩,
      ⟨.deletion, plainText "b" oneLine_b, false⟩,
      ⟨.context, plainText "" (by decide), false⟩]
  changes := ⟨_, List.mem_cons_of_mem _ List.mem_cons_self, by decide⟩

theorem changed_line_is_read_back :
    Recovers ⟨fun _ => none⟩ none [changedLine] true (fun _ => false) := by
  have frame : PlainFrame none [changedLine] := by
    refine ⟨fun _ isFile => (by cases isFile), ?_, ?_⟩
    · intro hunk member
      rw [List.mem_singleton.mp member]
      unfold PhraseFree
      decide +kernel
    · intro hunk member
      rw [List.mem_singleton.mp member]
      unfold PhraseFree
      decide +kernel
  refine (numbered_hunks_parse_back_iff ⟨fun _ => none⟩ none [changedLine] true (fun _ => false)
    frame).mpr ⟨fun _ isFile => (by cases isFile), ?_, ?_, ?_⟩
  · intro hunk member
    rw [List.mem_singleton.mp member]
    unfold PhraseFree
    decide +kernel
  · intro hunk member _
    rw [List.mem_singleton.mp member]
    unfold UnifiedHunk.EndsClean
    decide +kernel
  · intro last isLast
    have only : last = changedLine := (Option.some.inj isLast).symm
    rw [only]
    unfold UnifiedHunk.EndsClean
    decide +kernel

/-- The empty line before the old side is not read back. -/
theorem empty_line_is_lost :
    decoupleAndConvertToHunksWithLinesNumbers ⟨fun _ => none⟩
        (patchOf true (fun _ => false) [lineBeforeEmptyOne]) none =
      some "\n@@ -1,3 +1,2 @@\n__new hunk__\n1  a\n2\n__old hunk__\n a\n-b".toList ∧
    expectedBlocks [lineBeforeEmptyOne] = [[(1, "a".toList), (2, [])]] ∧
    ¬ Recovers ⟨fun _ => none⟩ none [lineBeforeEmptyOne] true (fun _ => false) := by
  refine ⟨by decide +kernel, by decide +kernel, ?_⟩
  unfold Recovers
  decide +kernel

end MrAgent
