import MrAgent.NumberedExact
import MrAgent.ReportDiff

namespace MrAgent

/-!
# The lines of the written hunks

The text of the written hunks, line by line. White space is stripped from the
end of the text before both markers and at the end, so the last line before
these places may be shorter than the line that was written.
-/

/-- Lines, each with a line feed. -/
def withFeeds (lines : List (List Char)) : List Char :=
  lines.flatMap (· ++ ['\n'])

/-- The lines with the last one stripped at its end. -/
def stripLast (lines : List (List Char)) : List (List Char) :=
  lines.dropLast ++ (lines.getLast?.map rstrip).toList

section Strip

variable {line : List Char}

theorem rstrip_append
    (filled : rstrip line ≠ [])
    (text : List Char) :
    rstrip (text ++ line) = text ++ rstrip line := by
  induction line using List.reverseRecOn with
  | nil => exact absurd rfl filled
  | append_singleton front c ih =>
      rw [rstrip] at filled
      rw [rstrip, rstrip, ← List.append_assoc]
      by_cases space : isSpace c = true
      · rw [List.rdropWhile_concat_pos _ _ _ space] at filled ⊢
        rw [List.rdropWhile_concat_pos _ _ _ space]
        exact ih filled
      · rw [List.rdropWhile_concat_neg _ _ _ space, List.rdropWhile_concat_neg _ _ _ space,
          List.append_assoc]

theorem rstrip_append_blank
    (blank : rstrip line = [])
    (text : List Char) :
    rstrip (text ++ line) = rstrip text := by
  induction line using List.reverseRecOn with
  | nil => rw [List.append_nil]
  | append_singleton front c ih =>
      rw [rstrip] at blank
      by_cases space : isSpace c = true
      · rw [List.rdropWhile_concat_pos _ _ _ space] at blank
        rw [← List.append_assoc, rstrip, List.rdropWhile_concat_pos _ _ _ space]
        exact ih blank
      · rw [List.rdropWhile_concat_neg _ _ _ space] at blank
        exact absurd blank (by simp)

theorem rstrip_isPrefix
    (line : List Char) :
    rstrip line <+: line :=
  List.rdropWhile_prefix ..

theorem rstrip_lineFeed
    (line : List Char) :
    rstrip (line ++ ['\n']) = rstrip line :=
  rstrip_append_blank rfl line

end Strip

section Feeds

variable {lines : List (List Char)} {line : List Char}

theorem withFeeds_append
    (lines others : List (List Char)) :
    withFeeds (lines ++ others) = withFeeds lines ++ withFeeds others :=
  List.flatMap_append

theorem withFeeds_cons
    (line : List Char)
    (lines : List (List Char)) :
    withFeeds (line :: lines) = line ++ '\n' :: withFeeds lines := by
  rw [withFeeds, List.flatMap_cons, List.append_assoc]
  rfl

theorem withFeeds_concat
    (lines : List (List Char))
    (line : List Char) :
    withFeeds (lines ++ [line]) = withFeeds lines ++ (line ++ ['\n']) := by
  rw [withFeeds_append, withFeeds_cons]
  rfl

theorem splitLinesFrom_withFeeds
    (whole : ∀ line ∈ lines, unbroken line = true)
    (rest : List Char) :
    splitLinesFrom [] (withFeeds lines ++ rest) = lines ++ splitLinesFrom [] rest := by
  induction lines with
  | nil => rfl
  | cons line lines ih =>
      obtain ⟨here, further⟩ := List.forall_mem_cons.mp whole
      rw [withFeeds_cons, List.cons_append, ← ih further, List.append_assoc]
      exact splitLinesFrom_lf here _

theorem stripLast_append
    (lines : List (List Char))
    {others : List (List Char)}
    (filled : others ≠ []) :
    stripLast (lines ++ others) = lines ++ stripLast others := by
  rw [stripLast, stripLast, List.dropLast_append_of_ne_nil filled, List.getLast?_append_of_ne_nil
    lines filled, List.append_assoc]

theorem stripLast_concat
    (lines : List (List Char))
    (line : List Char) :
    stripLast (lines ++ [line]) = lines ++ [rstrip line] :=
  stripLast_append lines (List.cons_ne_nil line [])

theorem rstrip_withFeeds
    (filled : ∀ last ∈ lines.getLast?, rstrip last ≠ [])
    (nonempty : lines ≠ [])
    (rest : List Char) :
    rstrip (withFeeds lines) ++ '\n' :: rest = withFeeds (stripLast lines) ++ rest := by
  obtain ⟨front, last, rfl⟩ := (List.eq_nil_or_concat lines).resolve_left nonempty
  rw [List.concat_eq_append] at filled ⊢
  have lastFilled := filled last List.getLast?_concat
  rw [withFeeds_concat, rstrip_append (by rwa [rstrip_lineFeed]), rstrip_lineFeed,
    stripLast_concat, withFeeds_append, withFeeds_cons]
  simp [withFeeds]

theorem splitLinesFrom_rstrip
    (whole : ∀ line ∈ lines, unbroken line = true) :
    splitLinesFrom [] (rstrip (withFeeds lines)) =
      stripLast (lines.rdropWhile (rstrip · = [])) := by
  induction lines using List.reverseRecOn with
  | nil => rfl
  | append_singleton front last ih =>
      have wholeFront : ∀ line ∈ front, unbroken line = true := fun line member =>
        whole line (List.mem_append_left _ member)
      have wholeLast := whole last (List.mem_append_right _ (List.mem_singleton_self last))
      by_cases blank : rstrip last = []
      · rw [withFeeds_concat, rstrip_append_blank (by rwa [rstrip_lineFeed]), ih wholeFront,
          List.rdropWhile_concat_pos (rstrip · = []) _ _ (decide_eq_true blank)]
      · have wholeStripped : unbroken (rstrip last) = true := by
          rw [unbroken, List.all_eq_true] at wholeLast ⊢
          exact fun c member => wholeLast c ((rstrip_isPrefix last).subset member)
        have lastLine := splitLinesFrom_last wholeStripped blank
        rw [withFeeds_concat, rstrip_append (by rwa [rstrip_lineFeed]), rstrip_lineFeed,
          splitLinesFrom_withFeeds wholeFront, lastLine,
          List.rdropWhile_concat_neg (rstrip · = []) _ _ (by simpa using blank), stripLast_concat]

end Feeds

/-! ## Written hunks -/

variable {c : Char}

theorem rstrip_ne_nil
    {line : List Char}
    (member : c ∈ line)
    (filled : isSpace c = false) :
    rstrip line ≠ [] := by
  intro blank
  have space := List.rdropWhile_eq_nil_iff.mp blank c member
  rw [filled] at space
  cases space

theorem isSpace_of_isDigit
    (digit : c.isDigit = true) :
    isSpace c = false := by
  rw [Char.isDigit, Bool.and_eq_true, decide_eq_true_iff, decide_eq_true_iff] at digit
  have low : 48 ≤ c.toNat := digit.1
  have high : c.toNat ≤ 57 := digit.2
  simp [isSpace]
  omega

theorem exists_mem_intText
    (number : Int) :
    ∃ c ∈ intText number, isSpace c = false := by
  cases number with
  | ofNat number =>
      have filled : Nat.toDigits 10 number ≠ [] := Nat.toDigits_ne_nil
      have digit := Nat.isDigit_of_mem_toDigits (by decide) (by decide)
        (List.head_mem filled)
      exact ⟨_, (intText_ofNat number).symm ▸ List.head_mem filled, isSpace_of_isDigit digit⟩
  | negSucc number =>
      rw [intText_negSucc]
      exact ⟨'-', List.mem_cons_self, by decide⟩

/-- A numbered line. -/
def numberedLine (entry : Int × List Char) : List Char :=
  intText entry.1 ++ ' ' :: entry.2

namespace NumberedHunk

/-- The lines of the header and of the new side. -/
def headLines (hunk : NumberedHunk) : List (List Char) :=
  [] :: rstrip hunk.header :: "__new hunk__".toList :: hunk.newLines.map numberedLine

/-- The lines of a hunk before more text is written. -/
def lines (hunk : NumberedHunk) : List (List Char) :=
  if hunk.oldLines = [] then hunk.headLines
  else stripLast hunk.headLines ++ "__old hunk__".toList :: hunk.oldLines

variable (hunk : NumberedHunk)

theorem headLines_ne_nil : hunk.headLines ≠ [] :=
  List.cons_ne_nil _ _

theorem headLines_filled :
    ∀ last ∈ hunk.headLines.getLast?, rstrip last ≠ [] := by
  intro last isLast
  rw [headLines] at isLast
  cases same : hunk.newLines using List.reverseRecOn with
  | nil =>
      rw [same, List.map_nil] at isLast
      have marker : last = "__new hunk__".toList := (Option.some.inj isLast).symm
      rw [marker]
      decide
  | append_singleton front entry =>
      have numbers : [] :: rstrip hunk.header :: "__new hunk__".toList ::
          (front ++ [entry]).map numberedLine =
            ([] :: rstrip hunk.header :: "__new hunk__".toList :: front.map numberedLine) ++
              [numberedLine entry] := by
        rw [List.map_append]
        rfl
      rw [same, numbers, List.getLast?_concat] at isLast
      cases isLast
      obtain ⟨c, member, filled⟩ := exists_mem_intText entry.1
      exact rstrip_ne_nil (List.mem_append_left _ member) filled

theorem append_withFeeds
    (headed : rstrip hunk.header ≠ [])
    (filled : ¬ (hunk.newLines = [] ∧ hunk.oldLines = []))
    (before : List (List Char)) :
    hunk.append (withFeeds before) = withFeeds (before ++ hunk.lines) := by
  have header : hunk.header ≠ [] := by
    intro empty
    rw [empty] at headed
    exact headed rfl
  have start : withFeeds before ++ '\n' :: hunk.header ++ ['\n'] =
      withFeeds (before ++ [[], hunk.header]) := by
    simp [withFeeds]
  have head : rstrip (withFeeds (before ++ [[], hunk.header])) ++ "\n__new hunk__\n".toList ++
        (hunk.newLines.flatMap fun entry => intText entry.1 ++ ' ' :: entry.2 ++ ['\n']) =
      withFeeds (before ++ hunk.headLines) := by
    have two : before ++ [[], hunk.header] = (before ++ [[]]) ++ [hunk.header] := by
      rw [List.append_assoc]
      rfl
    have numbers : (hunk.newLines.flatMap fun entry =>
        intText entry.1 ++ ' ' :: entry.2 ++ ['\n']) =
          withFeeds (hunk.newLines.map numberedLine) := by
      rw [withFeeds, List.flatMap_map]
      rfl
    have marked := @rstrip_withFeeds ((before ++ [[]]) ++ [hunk.header])
      (by rw [List.getLast?_concat]; intro last isLast; cases isLast; exact headed) (by simp)
      ("__new hunk__\n".toList ++ withFeeds (hunk.newLines.map numberedLine))
    rw [stripLast_concat] at marked
    rw [two, numbers, List.append_assoc]
    refine marked.trans ?_
    rw [headLines]
    simp [withFeeds]
  rw [append, if_neg header, appendLines, start, if_neg filled, head, lines]
  by_cases old : hunk.oldLines = []
  · rw [if_pos old, if_pos old]
  · have last : ∀ last ∈ (before ++ hunk.headLines).getLast?, rstrip last ≠ [] := by
      rw [List.getLast?_append_of_ne_nil before hunk.headLines_ne_nil]
      exact hunk.headLines_filled
    have marked := rstrip_withFeeds last (by simp [hunk.headLines_ne_nil])
      ("__old hunk__\n".toList ++ withFeeds hunk.oldLines)
    rw [stripLast_append before hunk.headLines_ne_nil] at marked
    rw [if_neg old, if_neg old, List.append_assoc]
    refine marked.trans ?_
    simp [withFeeds]

end NumberedHunk

/-- The lines in front of the hunks. -/
def fileLines (file : Option PatchFile) : List (List Char) :=
  match file with
  | some file => [[], [], "## File: '".toList ++ strip file.filename.toList ++ ['\'']]
  | none => []

theorem fileHeader_eq
    (file : Option PatchFile) :
    fileHeader file = withFeeds (fileLines file) := by
  have three : ∀ start quote name title : List Char, start = '\n' :: '\n' :: title →
      quote = ['\'', '\n'] → start ++ name ++ quote =
        withFeeds [[], [], title ++ name ++ ['\'']] := by
    rintro _ _ name title rfl rfl
    simp [withFeeds]
  cases file with
  | none => rfl
  | some file =>
      have start : "\n\n## File: '".toList = '\n' :: '\n' :: "## File: '".toList := by decide
      have quote : "'\n".toList = ['\'', '\n'] := by decide
      exact three _ _ _ _ start quote

theorem foldl_append
    {hunks : List NumberedHunk}
    (headed : ∀ hunk ∈ hunks, rstrip hunk.header ≠ [])
    (filled : ∀ hunk ∈ hunks, ¬ (hunk.newLines = [] ∧ hunk.oldLines = []))
    (before : List (List Char)) :
    hunks.foldl NumberedHunk.append (withFeeds before) =
      withFeeds (before ++ hunks.flatMap NumberedHunk.lines) := by
  induction hunks generalizing before with
  | nil => simp
  | cons hunk rest ih =>
      obtain ⟨head, headedRest⟩ := List.forall_mem_cons.mp headed
      obtain ⟨first, filledRest⟩ := List.forall_mem_cons.mp filled
      rw [List.foldl_cons, hunk.append_withFeeds head first,
        ih headedRest filledRest, List.flatMap_cons, List.append_assoc]

end MrAgent
