import MrAgent.HunkBlocks
import MrAgent.WrittenLines

namespace MrAgent

/-!
# Reading written hunks

`_extract_new_hunk_blocks` reads the numbered lines of written hunks back. Lines
that start with no digit are skipped, and the last numbered line of a hunk is
read as it has been stripped.
-/

/-! ## Single lines -/

namespace DigitEnv

variable (env : DigitEnv)

/-- A line that starts with no digit is no numbered line. -/
def Silent (line : List Char) : Prop :=
  ∀ c ∈ line.head?, env.digit c = none

variable {env : DigitEnv}

theorem silent_of_isPrefix
    {line start : List Char}
    (silent : env.Silent line)
    (isPrefix : start <+: line) :
    env.Silent start := by
  obtain ⟨behind, rfl⟩ := isPrefix
  cases start with
  | nil => exact fun _ member => by cases member
  | cons c start => exact silent

theorem matchNewHunkLine_silent
    {line : List Char}
    (silent : env.Silent line) :
    env.matchNewHunkLine line = none := by
  have none_ : env.takeDigits line = none := by
    rw [takeDigits]
    cases line with
    | nil => rfl
    | cons c rest =>
        rw [List.takeWhile_cons, silent c rfl]
        rfl
  rw [matchNewHunkLine, none_]

end DigitEnv

/-- A numbered line of the new side. -/
def OnNewSide (entry : Int × List Char) : Prop :=
  ∃ (number : Nat) (sign : Char) (content : List Char),
    entry = ((number : Int), sign :: content) ∧ (sign = ' ' ∨ sign = '+')

/-- The number and the content of a line. -/
def pairOf (entry : Int × List Char) : Nat × List Char :=
  (entry.1.toNat, entry.2.tail)

/-- What is read of a line that has been stripped. -/
def strippedPair (entry : Int × List Char) : Option (Nat × List Char) :=
  match rstrip entry.2 with
  | [] => none
  | _ :: content => some (entry.1.toNat, content)

section Lines

variable (env : DigitEnv) {entry : Int × List Char}

variable (number : Nat)

theorem matchNewHunkLine_signed
    {sign : Char}
    (isSign : sign = ' ' ∨ sign = '+')
    (content : List Char) :
    env.matchNewHunkLine (intText number ++ ' ' :: sign :: content) = some (number, content) := by
  rw [intText_ofNat, DigitEnv.matchNewHunkLine, env.takeDigits_toDigits number rfl]
  simp only [if_pos isSign, env.number_toDigits]

theorem matchNewHunkLine_numberedLine
    (isNew : OnNewSide entry) :
    env.matchNewHunkLine (numberedLine entry) = some (pairOf entry) := by
  obtain ⟨number, sign, content, rfl, isSign⟩ := isNew
  exact matchNewHunkLine_signed env number isSign content

theorem rstrip_intText :
    rstrip (intText number) = intText number := by
  rw [intText_ofNat, rstrip, List.rdropWhile_eq_self_iff]
  intro filled space
  have digit := Nat.isDigit_of_mem_toDigits (by decide) (by decide)
    (List.getLast_mem (l := Nat.toDigits 10 number) filled)
  rw [isSpace_of_isDigit digit] at space
  cases space

theorem matchNewHunkLine_stripped
    (isNew : OnNewSide entry) :
    env.matchNewHunkLine (rstrip (numberedLine entry)) = strippedPair entry := by
  obtain ⟨number, sign, content, rfl, isSign⟩ := isNew
  have spaced : numberedLine ((number : Int), sign :: content) =
      (intText number ++ [' ']) ++ sign :: content := by
    rw [numberedLine, List.append_assoc]
    rfl
  rw [spaced, strippedPair]
  cases stripped : rstrip (sign :: content) with
  | nil =>
      have only : env.takeDigits (Nat.toDigits 10 number) =
          some (Nat.toDigits 10 number, []) := by
        have digits : (Nat.toDigits 10 number).takeWhile (fun c => (env.digit c).isSome) =
            Nat.toDigits 10 number := by
          rw [List.takeWhile_eq_self_iff]
          intro c member
          rw [env.digit_of_isDigit (Nat.isDigit_of_mem_toDigits (by decide) (by decide) member)]
          rfl
        rw [DigitEnv.takeDigits, digits, List.drop_length]
        exact if_neg Nat.toDigits_ne_nil
      rw [rstrip_append_blank stripped, rstrip_append_blank (by decide), rstrip_intText,
        intText_ofNat, DigitEnv.matchNewHunkLine, only]
  | cons c rest =>
      have same : c = sign := by
        obtain ⟨behind, whole⟩ := rstrip_isPrefix (sign :: content)
        rw [stripped] at whole
        injection whole
      rw [rstrip_append (by rw [stripped]; exact List.cons_ne_nil _ _), stripped, same,
        List.append_assoc]
      exact matchNewHunkLine_signed env number isSign rest

theorem head_numberedLine
    (isNew : OnNewSide entry) :
    ∃ c rest, c.isDigit = true ∧ numberedLine entry = c :: rest := by
  obtain ⟨number, sign, content, rfl, _⟩ := isNew
  rw [numberedLine, intText_ofNat]
  cases digits : Nat.toDigits 10 number with
  | nil => exact absurd digits Nat.toDigits_ne_nil
  | cons c rest =>
      exact ⟨c, _, Nat.isDigit_of_mem_toDigits (by decide) (by decide)
        (digits ▸ List.mem_cons_self), rfl⟩

theorem head_rstrip
    {c : Char}
    {rest : List Char}
    (filled : isSpace c = false) :
    ∃ shorter, rstrip (c :: rest) = c :: shorter := by
  have nonempty : rstrip (c :: rest) ≠ [] := rstrip_ne_nil List.mem_cons_self filled
  obtain ⟨behind, whole⟩ := rstrip_isPrefix (c :: rest)
  cases same : rstrip (c :: rest) with
  | nil => exact absurd same nonempty
  | cons d shorter =>
      rw [same] at whole
      injection whole with head
      exact ⟨shorter, by rw [head]⟩

end Lines

namespace BlockReading

/-- The blocks that hold a line. -/
def found (reading : BlockReading) : List HunkBlock :=
  reading.close.filter (· ≠ [])

variable {env : DigitEnv}

theorem found_step
    {line : List Char}
    (silent : env.Silent line)
    (reading : BlockReading) :
    (reading.step env line).found = reading.found := by
  rw [step, DigitEnv.matchNewHunkLine_silent silent]
  split
  · simp [found, close]
  · split
    · simp [found, close]
    · split
      · simp [found, close]
      · obtain ⟨complete, current⟩ := reading
        cases current <;> simp [found, close]

theorem found_foldl
    {lines : List (List Char)}
    (silent : ∀ line ∈ lines, env.Silent line)
    (reading : BlockReading) :
    (lines.foldl (step env) reading).found = reading.found := by
  induction lines generalizing reading with
  | nil => rfl
  | cons line rest ih =>
      obtain ⟨here, further⟩ := List.forall_mem_cons.mp silent
      rw [List.foldl_cons, ih further, found_step here]

theorem step_digit
    (env : DigitEnv)
    {c : Char}
    (digit : c.isDigit = true)
    (rest : List Char)
    (complete : List HunkBlock)
    (block : HunkBlock) :
    step env { complete, current := some block } (c :: rest) =
      { complete, current := some (block ++ (env.matchNewHunkLine (c :: rest)).toList) } := by
  have space := isSpace_of_isDigit digit
  have first : ∃ shorter, strip (c :: rest) = c :: shorter := by
    obtain ⟨shorter, same⟩ := @head_rstrip c rest space
    refine ⟨shorter, ?_⟩
    rw [strip_eq_rdropWhile, List.dropWhile_cons, space]
    exact same
  obtain ⟨shorter, same⟩ := first
  have marker : c ≠ '_' ∧ c ≠ '@' := by
    constructor <;> (rintro rfl; cases digit)
  have newMarker : strip (c :: rest) ≠ "__new hunk__".toList := by
    rw [same]
    exact fun equal => marker.1 (List.cons.inj equal).1
  have oldMarker : strip (c :: rest) ≠ "__old hunk__".toList := by
    rw [same]
    exact fun equal => marker.1 (List.cons.inj equal).1
  have header : startsHeader (c :: rest) = false := by
    simp [startsHeader, marker.2.symm]
  rw [step, if_neg newMarker, if_neg oldMarker, header]
  rfl

end BlockReading

/-! ## Hunks -/

/-- What is read of the new side when its last line has been stripped. -/
def strippedPairs (entries : List (Int × List Char)) : HunkBlock :=
  entries.dropLast.map pairOf ++ (entries.getLast?.bind strippedPair).toList

namespace BlockReading

variable (env : DigitEnv)

variable {entries : List (Int × List Char)}

theorem foldl_numbered
    (isNew : ∀ entry ∈ entries, OnNewSide entry)
    (complete : List HunkBlock)
    (block : HunkBlock) :
    (entries.map numberedLine).foldl (step env) { complete, current := some block } =
      { complete, current := some (block ++ entries.map pairOf) } := by
  induction entries generalizing block with
  | nil => rw [List.map_nil, List.map_nil, List.append_nil]; rfl
  | cons entry rest ih =>
      obtain ⟨here, further⟩ := List.forall_mem_cons.mp isNew
      obtain ⟨c, more, digit, line⟩ := head_numberedLine here
      have matched := matchNewHunkLine_numberedLine env here
      rw [line] at matched
      rw [List.map_cons, List.foldl_cons, line, step_digit env digit, matched,
        ih further, List.append_assoc]
      rfl

theorem foldl_stripped
    (isNew : ∀ entry ∈ entries, OnNewSide entry)
    (complete : List HunkBlock) :
    (stripLast (entries.map numberedLine)).foldl (step env) { complete, current := some [] } =
      { complete, current := some (strippedPairs entries) } := by
  induction entries using List.reverseRecOn with
  | nil => rfl
  | append_singleton front last _ =>
      have isLast := isNew last (List.mem_append_right _ (List.mem_singleton_self last))
      obtain ⟨c, more, digit, line⟩ := head_numberedLine isLast
      obtain ⟨shorter, same⟩ := @head_rstrip c more (isSpace_of_isDigit digit)
      have matched := matchNewHunkLine_stripped env isLast
      rw [line, same] at matched
      rw [List.map_append, List.map_singleton, stripLast_concat, List.foldl_append,
        foldl_numbered env (fun entry member => isNew entry (List.mem_append_left _ member)),
        line, same, List.foldl_cons, List.foldl_nil, step_digit env digit, matched, strippedPairs,
        List.dropLast_concat, List.getLast?_concat, List.nil_append]
      rfl

end BlockReading

/-- A hunk as the converter writes it for a unified hunk. -/
structure WellWritten (env : DigitEnv) (hunk : NumberedHunk) : Prop where
  headed : startsHeader hunk.header = true
  newSide : ∀ entry ∈ hunk.newLines, OnNewSide entry
  oldSide : ∀ line ∈ hunk.oldLines, env.Silent line
  filled : ¬ (hunk.newLines = [] ∧ hunk.oldLines = [])
  whole : ∀ line ∈ hunk.lines, unbroken line = true

namespace NumberedHunk

variable {env : DigitEnv} {hunk : NumberedHunk}

theorem header_rstrip
    (headed : startsHeader hunk.header = true) :
    ∃ rest, rstrip hunk.header = '@' :: rest := by
  rw [startsHeader, decide_eq_true_iff] at headed
  obtain ⟨behind, same⟩ := headed
  obtain ⟨shorter, stripped⟩ := @head_rstrip '@' ('@' :: behind) (by decide)
  rw [← same]
  exact ⟨shorter, stripped⟩

theorem rstrip_header_ne_nil
    (headed : startsHeader hunk.header = true) :
    rstrip hunk.header ≠ [] := by
  obtain ⟨rest, same⟩ := header_rstrip headed
  rw [same]
  exact List.cons_ne_nil _ _

theorem foldl_opening
    (headed : startsHeader hunk.header = true)
    (reading : BlockReading) :
    ∃ complete, complete.filter (· ≠ []) = reading.found ∧
      [[], rstrip hunk.header, "__new hunk__".toList].foldl (BlockReading.step env) reading =
        { complete, current := some [] } := by
  obtain ⟨rest, same⟩ := header_rstrip headed
  have silent : ∀ line ∈ [[], rstrip hunk.header], env.Silent line := by
    intro line member
    rcases List.mem_cons.mp member with rfl | member
    · exact fun _ found => by cases found
    · rw [List.mem_singleton.mp member, same]
      intro c found
      cases found
      rfl
  refine ⟨([[], rstrip hunk.header].foldl (BlockReading.step env) reading).close,
    BlockReading.found_foldl silent reading, ?_⟩
  have marker : strip "__new hunk__".toList = "__new hunk__".toList := by decide
  have two : [[], rstrip hunk.header, "__new hunk__".toList] =
      [[], rstrip hunk.header] ++ ["__new hunk__".toList] := rfl
  rw [two, List.foldl_append, List.foldl_cons, List.foldl_nil]
  generalize [[], rstrip hunk.header].foldl (BlockReading.step env) reading = opened
  rw [BlockReading.step, if_pos marker]

theorem found_headLines
    (written : WellWritten env hunk)
    (reading : BlockReading) :
    (hunk.headLines.foldl (BlockReading.step env) reading).found =
      reading.found ++ [hunk.newLines.map pairOf].filter (· ≠ []) := by
  obtain ⟨complete, before, opened⟩ := foldl_opening written.headed reading
  have split : hunk.headLines = [[], rstrip hunk.header, "__new hunk__".toList] ++
      hunk.newLines.map numberedLine := rfl
  rw [split, List.foldl_append, opened, BlockReading.foldl_numbered env written.newSide,
    List.nil_append, BlockReading.found, BlockReading.close, List.filter_append, before]
  rfl

theorem found_stripped
    (written : WellWritten env hunk)
    (reading : BlockReading) :
    ((stripLast hunk.headLines).foldl (BlockReading.step env) reading).found =
      reading.found ++ [strippedPairs hunk.newLines].filter (· ≠ []) := by
  obtain ⟨complete, before, opened⟩ := foldl_opening written.headed reading
  have split : stripLast hunk.headLines = [[], rstrip hunk.header, "__new hunk__".toList] ++
      stripLast (hunk.newLines.map numberedLine) := by
    have parts : hunk.headLines = [[], rstrip hunk.header, "__new hunk__".toList] ++
      hunk.newLines.map numberedLine := rfl
    rw [parts]
    by_cases empty : hunk.newLines.map numberedLine = []
    · have marker : rstrip "__new hunk__".toList = "__new hunk__".toList := by decide
      rw [empty, List.append_nil]
      change [[], rstrip hunk.header, rstrip "__new hunk__".toList] = _
      rw [marker]
      rfl
    · exact stripLast_append _ empty
  rw [split, List.foldl_append, opened, BlockReading.foldl_stripped env written.newSide,
    BlockReading.found, BlockReading.close, List.filter_append, before]
  rfl

theorem found_lines
    (written : WellWritten env hunk)
    (reading : BlockReading) :
    (hunk.lines.foldl (BlockReading.step env) reading).found =
      reading.found ++ [if hunk.oldLines = [] then hunk.newLines.map pairOf
        else strippedPairs hunk.newLines].filter (· ≠ []) := by
  rw [lines]
  by_cases old : hunk.oldLines = []
  · rw [if_pos old, if_pos old, found_headLines written]
  · have silent : ∀ line ∈ "__old hunk__".toList :: hunk.oldLines, env.Silent line := by
      refine List.forall_mem_cons.mpr ⟨fun c found => ?_, written.oldSide⟩
      cases found
      rfl
    rw [if_neg old, if_neg old, List.foldl_append, BlockReading.found_foldl silent,
      found_stripped written]

end NumberedHunk

/-! ## The end of the text -/

/-- The lines of a text that is stripped at its end. -/
def trimmed (lines : List (List Char)) : List (List Char) :=
  stripLast (lines.rdropWhile (rstrip · = []))

variable {lines : List (List Char)}

theorem rdropWhile_blank_append
    (filled : ∃ line ∈ lines, rstrip line ≠ [])
    (before : List (List Char)) :
    lines.rdropWhile (rstrip · = []) ≠ [] ∧
      (before ++ lines).rdropWhile (rstrip · = []) =
        before ++ lines.rdropWhile (rstrip · = []) := by
  induction lines using List.reverseRecOn with
  | nil =>
      obtain ⟨line, member, _⟩ := filled
      cases member
  | append_singleton front last ih =>
      rw [← List.append_assoc]
      by_cases blank : rstrip last = []
      · rw [List.rdropWhile_concat_pos (rstrip · = []) _ _ (decide_eq_true blank),
          List.rdropWhile_concat_pos (rstrip · = []) _ _ (decide_eq_true blank)]
        refine ih ?_
        obtain ⟨line, member, lineFilled⟩ := filled
        rcases List.mem_append.mp member with inFront | isLast
        · exact ⟨line, inFront, lineFilled⟩
        · rw [List.mem_singleton.mp isLast] at lineFilled
          exact absurd blank lineFilled
      · rw [List.rdropWhile_concat_neg (rstrip · = []) _ _ (by simpa using blank),
          List.rdropWhile_concat_neg (rstrip · = []) _ _ (by simpa using blank), List.append_assoc]
        exact ⟨by simp, rfl⟩

theorem trimmed_append
    (filled : ∃ line ∈ lines, rstrip line ≠ [])
    (before : List (List Char)) :
    trimmed (before ++ lines) = before ++ trimmed lines := by
  obtain ⟨nonempty, append⟩ := rdropWhile_blank_append filled before
  rw [trimmed, append, stripLast_append before nonempty, trimmed]

variable {env : DigitEnv}

theorem silent_trimmed
    (silent : ∀ line ∈ lines, env.Silent line) :
    ∀ line ∈ trimmed lines, env.Silent line := by
  intro line member
  obtain ⟨behind, whole⟩ := List.rdropWhile_prefix (rstrip · = []) lines
  have kept : ∀ line ∈ lines.rdropWhile (rstrip · = []), env.Silent line := fun line inside =>
    silent line (whole ▸ List.mem_append_left behind inside)
  rcases List.mem_append.mp member with front | last
  · exact kept line (List.mem_of_mem_dropLast front)
  · obtain ⟨source, isLast, rfl⟩ := Option.map_eq_some_iff.mp (Option.mem_toList.mp last)
    exact DigitEnv.silent_of_isPrefix (kept source (List.mem_of_getLast? isLast)) (rstrip_isPrefix source)

/-- What is read of some hunks. -/
def readBlocks : List NumberedHunk → List HunkBlock
  | [] => []
  | [last] => [strippedPairs last.newLines]
  | hunk :: rest =>
    (if hunk.oldLines = [] then hunk.newLines.map pairOf else strippedPairs hunk.newLines) ::
      readBlocks rest

namespace NumberedHunk

variable {env : DigitEnv} {hunk : NumberedHunk}

theorem exists_filled_line
    (hunk : NumberedHunk) :
    ∃ line ∈ hunk.lines, rstrip line ≠ [] := by
  have old : rstrip "__old hunk__".toList ≠ [] := by decide
  have new : rstrip "__new hunk__".toList ≠ [] := by decide
  rw [lines]
  split
  · exact ⟨_, List.mem_cons_of_mem _ (List.mem_cons_of_mem _ List.mem_cons_self), new⟩
  · exact ⟨_, List.mem_append_right _ List.mem_cons_self, old⟩

theorem found_last
    (written : WellWritten env hunk)
    (reading : BlockReading) :
    ((trimmed hunk.lines).foldl (BlockReading.step env) reading).found =
      reading.found ++ [strippedPairs hunk.newLines].filter (· ≠ []) := by
  rw [lines]
  by_cases old : hunk.oldLines = []
  · have kept : hunk.headLines.rdropWhile (rstrip · = []) = hunk.headLines := by
      rw [List.rdropWhile_eq_self_iff]
      intro nonempty
      have filled := hunk.headLines_filled _ (List.getLast?_eq_some_getLast nonempty)
      simpa using filled
    rw [if_pos old, trimmed, kept, found_stripped written]
  · have silent : ∀ line ∈ "__old hunk__".toList :: hunk.oldLines, env.Silent line := by
      refine List.forall_mem_cons.mpr ⟨fun c found => ?_, written.oldSide⟩
      cases found
      rfl
    have marker : rstrip "__old hunk__".toList ≠ [] := by decide
    rw [if_neg old, trimmed_append ⟨_, List.mem_cons_self, marker⟩, List.foldl_append,
      BlockReading.found_foldl (silent_trimmed silent), found_stripped written]

end NumberedHunk

variable {hunks : List NumberedHunk}

theorem found_hunks
    (written : ∀ hunk ∈ hunks, WellWritten env hunk)
    (filled : hunks ≠ [])
    (reading : BlockReading) :
    ((trimmed (hunks.flatMap NumberedHunk.lines)).foldl (BlockReading.step env) reading).found =
      reading.found ++ (readBlocks hunks).filter (· ≠ []) := by
  induction hunks generalizing reading with
  | nil => exact absurd rfl filled
  | cons hunk rest ih =>
      obtain ⟨here, further⟩ := List.forall_mem_cons.mp written
      cases rest with
      | nil => rw [List.flatMap_singleton, NumberedHunk.found_last here, readBlocks]
      | cons next rest =>
          obtain ⟨line, member, lineFilled⟩ := next.exists_filled_line
          have later : ∃ line ∈ (next :: rest).flatMap NumberedHunk.lines, rstrip line ≠ [] :=
            ⟨line, List.mem_flatMap.mpr ⟨next, List.mem_cons_self, member⟩, lineFilled⟩
          rw [List.flatMap_cons, trimmed_append later, List.foldl_append,
            ih further (List.cons_ne_nil _ _), NumberedHunk.found_lines here,
            List.append_assoc, ← List.filter_append]
          rfl

theorem mem_of_mem_strip
    {text : List Char}
    {c : Char}
    (member : c ∈ strip text) :
    c ∈ text :=
  (List.dropWhile_sublist isSpace).subset
    (List.mem_reverse.mp ((List.dropWhile_sublist isSpace).subset (List.mem_reverse.mp member)))

variable {file : Option PatchFile}

theorem fileLines_plain
    (env : DigitEnv)
    (named : ∀ info ∈ file, unbroken info.filename.toList = true) :
    ∀ line ∈ fileLines file, env.Silent line ∧ unbroken line = true := by
  cases file with
  | none => exact fun _ member => absurd member List.not_mem_nil
  | some info =>
      have empty : env.Silent [] ∧ unbroken [] = true := ⟨fun _ found => (by cases found), rfl⟩
      intro line member
      rcases List.mem_cons.mp member with rfl | member
      · exact empty
      · rcases List.mem_cons.mp member with rfl | member
        · exact empty
        · rw [List.mem_singleton.mp member]
          refine ⟨fun c found => (by cases found; rfl), ?_⟩
          have title : unbroken "## File: '".toList = true := by decide
          have name : unbroken (strip info.filename.toList) = true := by
            rw [unbroken, List.all_eq_true]
            exact fun c inside => List.all_eq_true.mp (named info rfl) c (mem_of_mem_strip inside)
          rw [unbroken_append, unbroken_append, title, name]
          decide

theorem extractNewHunkBlocks_writtenText
    (present : ∀ info ∈ file, info.editType ≠ .deleted)
    (named : ∀ info ∈ file, unbroken info.filename.toList = true)
    (written : ∀ hunk ∈ hunks, WellWritten env hunk) :
    extractNewHunkBlocks env (writtenText file hunks) = (readBlocks hunks).filter (· ≠ []) := by
  have kept : file.filter (·.editType = .deleted) = none := by
    rw [Option.filter_eq_none_iff]
    intro info isFile deleted
    exact present info isFile (of_decide_eq_true deleted)
  have plain := fileLines_plain env named
  have whole : ∀ line ∈ fileLines file ++ hunks.flatMap NumberedHunk.lines,
      unbroken line = true := by
    intro line member
    rcases List.mem_append.mp member with before | inHunks
    · exact (plain line before).2
    · obtain ⟨hunk, isHunk, inside⟩ := List.mem_flatMap.mp inHunks
      exact (written hunk isHunk).whole line inside
  have lines := foldl_append (fun hunk member => NumberedHunk.rstrip_header_ne_nil
    (written hunk member).headed) (fun hunk member => (written hunk member).filled) (fileLines file)
  rw [writtenText, kept]
  simp only [fileHeader_eq, lines]
  rw [extractNewHunkBlocks, splitLinesFrom_rstrip whole]
  change BlockReading.found ((trimmed _).foldl _ _) = _
  cases hunks with
  | nil =>
      rw [List.flatMap_nil, List.append_nil,
        BlockReading.found_foldl (silent_trimmed fun line member => (plain line member).1)]
      rfl
  | cons hunk rest =>
      obtain ⟨line, member, lineFilled⟩ := hunk.exists_filled_line
      rw [trimmed_append ⟨line, List.mem_flatMap.mpr ⟨hunk, List.mem_cons_self, member⟩, lineFilled⟩,
        List.foldl_append, found_hunks written (List.cons_ne_nil _ _),
        BlockReading.found_foldl fun line member => (plain line member).1]
      rfl

end MrAgent
