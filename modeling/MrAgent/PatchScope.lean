import MrAgent.PatchNames

namespace MrAgent

/-!
# The scope of a patch

A patch of git touches paths; the policy allows it by the paths that the
pattern finds in its text. The pattern finds the texts of the header lines, so
it covers the paths that these lines spell. File sections without hunks have no
such lines.
-/

/-! ## Lines of a patch -/

/-- The names in the header lines. -/
def FileSection.headerFiles (file : FileSection) : List FileName :=
  match file.body with
  | .hunks old new _ => [old, new]
  | _ => []

/-- The lines behind the header. -/
def FileSection.changeLines (file : FileSection) : List (List Char) :=
  match file.body with
  | .none => []
  | .hunks _ _ hunks => hunks.flatMap UnifiedHunk.lines
  | .binary lines => lines.map BinaryLine.line

theorem linesText_append
    (lines others : List (List Char)) :
    linesText (lines ++ others) = linesText lines ++ linesText others :=
  List.flatMap_append

theorem linesText_cons
    (line : List Char)
    (lines : List (List Char)) :
    linesText (line :: lines) = line ++ '\n' :: linesText lines := by
  rw [linesText, List.flatMap_cons, List.append_assoc]
  rfl

theorem ended_linesText
    (lines : List (List Char)) :
    Ended (linesText lines) := by
  induction lines with
  | nil => exact Or.inl rfl
  | cons line lines ih =>
      rw [linesText, List.flatMap_cons]
      exact Ended.append (Or.inr ⟨line, rfl⟩) ih

instance (line : List Char) : Decidable (isMarked line) :=
  inferInstanceAs (Decidable (_ ∨ _))

theorem not_isMarked_append
    {start : List Char}
    (long : 3 ≤ start.length)
    (unmarked : ¬ isMarked start)
    (rest : List Char) :
    ¬ isMarked (start ++ rest) := by
  rw [isMarked, List.take_append_of_le_length long]
  exact unmarked

theorem pathGroups_linesText
    {lines : List (List Char)}
    (unmarked : ∀ line ∈ lines, ¬ isMarked line ∧ '\n' ∉ line)
    (rest : List Char) :
    pathGroups (linesText lines ++ rest) = pathGroups rest := by
  induction lines with
  | nil => rfl
  | cons line lines ih =>
      have ⟨plain, oneLine⟩ := unmarked line List.mem_cons_self
      rw [linesText_cons, List.append_assoc, List.cons_append, pathGroups_unmarked plain oneLine]
      exact ih fun other member => unmarked other (List.mem_cons_of_mem _ member)

theorem digitChar_ne_newline
    {digit : Nat}
    (octal : digit < 8) :
    Nat.digitChar digit ≠ '\n' := by
  have digits : ∀ digit : Fin 8, Nat.digitChar digit ≠ '\n' := by decide
  exact digits ⟨digit, octal⟩

variable (pieces : List NamePiece)

theorem newline_notMem_pieces :
    '\n' ∉ pieces.flatMap NamePiece.text := by
  intro member
  obtain ⟨piece, _, inPiece⟩ := List.mem_flatMap.mp member
  cases piece with
  | raw c plain => exact plain.2.2 (List.mem_singleton.mp inPiece).symm
  | escape c letter known =>
      have letters : ∀ entry ∈ escapeLetters, entry.2 ≠ '\n' := by decide
      rcases List.mem_cons.mp inPiece with isBackslash | later
      · cases isBackslash
      · exact letters _ known (List.mem_singleton.mp later).symm
  | octal c =>
      obtain ⟨byte, _, inByte⟩ := List.mem_flatMap.mp inPiece
      rw [octalByte] at inByte
      simp only [List.mem_cons, List.not_mem_nil, or_false] at inByte
      rcases inByte with isBackslash | digit | digit | digit
      · cases isBackslash
      · have bound := byte.toNat_lt
        exact digitChar_ne_newline (by omega) digit.symm
      · exact digitChar_ne_newline (Nat.mod_lt _ (by decide)) digit.symm
      · exact digitChar_ne_newline (Nat.mod_lt _ (by decide)) digit.symm

theorem newline_notMem_quotedText :
    '\n' ∉ quotedText pieces := by
  have inside := newline_notMem_pieces pieces
  simp [quotedText, inside]

theorem WrittenName.newline_notMem
    (name : WrittenName) :
    '\n' ∉ name.text := by
  cases name with
  | plain name => exact fun member => (name.oneLine _ member).1 rfl
  | quoted pieces => exact newline_notMem_quotedText pieces

variable (file : FileName)

theorem FileName.newline_notMem :
    '\n' ∉ file.text := by
  cases file with
  | plain name noTab behind stops =>
      intro member
      rcases List.mem_append.mp member with inName | inBehind
      · exact (name.oneLine _ inName).1 rfl
      · exact behind.oneLine inBehind
  | quoted pieces behind =>
      intro member
      rcases List.mem_append.mp member with inName | inBehind
      · exact newline_notMem_quotedText pieces inName
      · exact behind.oneLine inBehind

theorem FileName.visible :
    Visible file.text := by
  cases file with
  | plain name noTab behind stops =>
      obtain ⟨c, member, notSpace⟩ := name.visible
      exact ⟨c, List.mem_append_left _ member, notSpace⟩
  | quoted pieces behind => exact ⟨'"', List.mem_cons_self, by decide⟩

theorem ExtendedHeader.unmarked
    (header : ExtendedHeader) :
    ¬ isMarked header.line ∧ '\n' ∉ header.line := by
  have keyword : ∀ start rest : List Char,
      3 ≤ start.length ∧ ¬ isMarked start ∧ '\n' ∉ start → '\n' ∉ rest →
      ¬ isMarked (start ++ rest) ∧ '\n' ∉ start ++ rest := by
    intro start rest plain oneLine
    refine ⟨not_isMarked_append plain.1 plain.2.1 rest, fun member => ?_⟩
    exact (List.mem_append.mp member).elim plain.2.2 oneLine
  cases header with
  | oldMode mode => exact keyword _ _ (by decide) mode.oneLine
  | newMode mode => exact keyword _ _ (by decide) mode.oneLine
  | deletedFileMode mode => exact keyword _ _ (by decide) mode.oneLine
  | newFileMode mode => exact keyword _ _ (by decide) mode.oneLine
  | copyFrom name => exact keyword _ _ (by decide) name.newline_notMem
  | copyTo name => exact keyword _ _ (by decide) name.newline_notMem
  | renameFrom name => exact keyword _ _ (by decide) name.newline_notMem
  | renameTo name => exact keyword _ _ (by decide) name.newline_notMem
  | similarityIndex percent => exact keyword _ _ (by decide) percent.oneLine
  | dissimilarityIndex percent => exact keyword _ _ (by decide) percent.oneLine
  | index hashes => exact keyword _ _ (by decide) hashes.oneLine

namespace FileSection

variable (file : FileSection)

theorem unmarked_gitLine :
    ¬ isMarked file.gitLine ∧ '\n' ∉ file.gitLine := by
  constructor
  · exact not_isMarked_append (by decide) (by decide) (file.left.text ++ ' ' :: file.right.text)
  · intro member
    rcases List.mem_append.mp member with inKeyword | later
    · exact absurd inKeyword (by decide)
    · rcases List.mem_append.mp later with inLeft | later
      · exact file.left.newline_notMem inLeft
      · rcases List.mem_cons.mp later with isBlank | inRight
        · exact absurd isBlank (by decide)
        · exact file.right.newline_notMem inRight

theorem unmarked_extended :
    ∀ line ∈ file.extended.map ExtendedHeader.line, ¬ isMarked line ∧ '\n' ∉ line := by
  intro line member
  obtain ⟨header, _, rfl⟩ := List.mem_map.mp member
  exact header.unmarked

/-- What the pattern reads in the header lines. -/
def headerGroups (file : FileSection) : List (List Char) :=
  file.headerFiles.map fun name => lineGroup (name.text.dropWhile isSpace)

end FileSection

theorem pathGroups_header
    {marker : List Char}
    (isMarker : marker = "---".toList ∨ marker = "+++".toList)
    (file : FileName)
    (rest : List Char) :
    pathGroups ((marker ++ ' ' :: file.text) ++ '\n' :: rest) =
      lineGroup (file.text.dropWhile isSpace) :: pathGroups rest := by
  have split : (marker ++ ' ' :: file.text) ++ '\n' :: rest =
      marker ++ ((' ' :: file.text.takeWhile isSpace) ++
        (file.text.dropWhile isSpace ++ '\n' :: rest)) := by
    conv_lhs => rw [← List.takeWhile_append_dropWhile (p := isSpace) (l := file.text)]
    simp only [List.append_assoc, List.cons_append]
  rw [split]
  refine pathGroups_marked isMarker (List.cons_ne_nil _ _) ?_ ?_ ?_ rest
  · intro c member
    rcases List.mem_cons.mp member with rfl | later
    · decide
    · exact List.mem_takeWhile_imp later
  · have notSpace := List.head?_dropWhile_not isSpace file.text
    cases behind : file.text.dropWhile isSpace with
    | nil =>
        obtain ⟨c, member, visible⟩ := file.visible
        have space := List.dropWhile_eq_nil_iff.mp behind c member
        rw [visible] at space
        cases space
    | cons c more =>
        rw [behind] at notSpace
        exact ⟨c, more, rfl, Bool.eq_false_iff.mpr (by simpa using notSpace)⟩
  · exact notMem_dropWhile file.newline_notMem

variable (file : FileSection)

theorem linesText_patchLines_cons
    (patch : List FileSection) :
    linesText (patchLines (file :: patch)) =
      file.gitLine ++ '\n' :: (linesText (file.extended.map ExtendedHeader.line) ++
        (linesText file.bodyLines ++ linesText (patchLines patch))) := by
  rw [patchLines, List.flatMap_cons, linesText_append, FileSection.lines, linesText_cons,
    linesText_append, List.append_assoc, List.cons_append, List.append_assoc]
  rfl

theorem pathGroups_bodyLines
    (rest : List Char) :
    pathGroups (linesText file.bodyLines ++ rest) =
      file.headerGroups ++ pathGroups (linesText file.changeLines ++ rest) := by
  cases body : file.body with
  | none =>
      simp [FileSection.bodyLines, FileSection.headerGroups, FileSection.headerFiles,
        FileSection.changeLines, body]
  | binary lines =>
      simp [FileSection.bodyLines, FileSection.headerGroups, FileSection.headerFiles,
        FileSection.changeLines, body]
  | hunks old new hunks =>
      have lines : file.bodyLines = ("---".toList ++ ' ' :: old.text) ::
          ("+++".toList ++ ' ' :: new.text) :: file.changeLines := by
        rw [FileSection.bodyLines, FileSection.changeLines, body]
        rfl
      have groups : file.headerGroups = [lineGroup (old.text.dropWhile isSpace),
          lineGroup (new.text.dropWhile isSpace)] := by
        rw [FileSection.headerGroups, FileSection.headerFiles, body]
        rfl
      rw [lines, groups, linesText_cons, List.append_assoc, List.cons_append,
        pathGroups_header (Or.inl rfl), linesText_cons, List.append_assoc, List.cons_append,
        pathGroups_header (Or.inr rfl)]
      rfl

variable {patch : List FileSection}

theorem mem_pathGroups
    {file : FileSection}
    (member : file ∈ patch)
    {group : List Char}
    (inHeader : group ∈ file.headerGroups)
    {text : List Char}
    (ended : Ended text) :
    group ∈ pathGroups (text ++ linesText (patchLines patch)) := by
  induction patch generalizing text with
  | nil => cases member
  | cons first patch ih =>
      have ⟨unmarked, oneLine⟩ := first.unmarked_gitLine
      have visible : ∃ c more, first.gitLine = c :: more ∧ isSpace c = false :=
        ⟨'d', "iff --git ".toList ++ (first.left.text ++ ' ' :: first.right.text), rfl, by decide⟩
      rw [linesText_patchLines_cons]
      obtain ⟨before, read⟩ := pathGroups_behind visible unmarked oneLine
        (linesText (first.extended.map ExtendedHeader.line) ++
          (linesText first.bodyLines ++ linesText (patchLines patch))) ended
      rw [read, pathGroups_linesText first.unmarked_extended, pathGroups_bodyLines]
      refine List.mem_append_right before ?_
      rcases List.mem_cons.mp member with rfl | later
      · exact List.mem_append_left _ inHeader
      · exact List.mem_append_right _
          (ih later (ended_linesText first.changeLines))

/-- No line of a change looks like a header line. -/
def QuietPatch (patch : List FileSection) : Prop :=
  ∀ file ∈ patch, ∀ line ∈ file.changeLines, ¬ isMarked line

theorem newline_notMem_digits
    (number : Nat) :
    '\n' ∉ Nat.toDigits 10 number := by
  intro member
  have digit := Nat.isDigit_of_mem_toDigits (by decide) (by decide) member
  exact absurd digit (by decide)

theorem newline_notMem_rangeText
    (start size : Nat)
    (leaveOut : Bool) :
    '\n' ∉ rangeText start size leaveOut := by
  rw [rangeText]
  intro member
  rcases List.mem_append.mp member with inStart | later
  · exact newline_notMem_digits start inStart
  · split at later
    · cases later
    · rcases List.mem_cons.mp later with isComma | inSize
      · cases isComma
      · exact newline_notMem_digits size inSize

theorem UnifiedHunk.newline_notMem
    (hunk : UnifiedHunk) :
    ∀ line ∈ hunk.lines, '\n' ∉ line := by
  have sectionText : '\n' ∉ (hunk.section_.map fun text => ' ' :: text.text).getD [] := by
    cases hunk.section_ with
    | none => exact List.not_mem_nil
    | some text =>
        intro member
        rcases List.mem_cons.mp member with isSpace | inText
        · cases isSpace
        · exact text.oneLine inText
  intro line member
  rcases List.mem_cons.mp member with rfl | inBody
  · have first := newline_notMem_rangeText hunk.start1 hunk.oldSide.length hunk.leaveOut1
    have second := newline_notMem_rangeText hunk.start2 hunk.newSide.length hunk.leaveOut2
    simp [UnifiedHunk.header, first, second, sectionText]
  · obtain ⟨entry, _, inEntry⟩ := List.mem_flatMap.mp inBody
    have whole : '\n' ∉ entry.line := by
      intro inLine
      rcases List.mem_cons.mp inLine with isSign | inContent
      · cases kind : entry.kind <;> rw [kind] at isSign <;> cases isSign
      · exact entry.content.oneLine inContent
    rw [HunkLine.lines] at inEntry
    split at inEntry
    · rcases List.mem_cons.mp inEntry with rfl | isMarker
      · exact whole
      · rw [List.mem_singleton.mp isMarker]
        decide
    · rw [List.mem_singleton.mp inEntry]
      exact whole

theorem BinaryLine.newline_notMem
    (line : BinaryLine) :
    '\n' ∉ line.line := by
  cases line with
  | start => decide
  | literal size =>
      intro member
      rcases List.mem_append.mp member with inKeyword | inSize
      · exact absurd inKeyword (by decide)
      · exact newline_notMem_digits size inSize
  | delta size =>
      intro member
      rcases List.mem_append.mp member with inKeyword | inSize
      · exact absurd inKeyword (by decide)
      · exact newline_notMem_digits size inSize
  | data letter isLetter digits =>
      intro member
      rcases List.mem_cons.mp member with isNewline | inDigits
      · rw [← isNewline] at isLetter
        exact absurd isLetter (by decide)
      · exact digits.oneLine inDigits
  | empty => exact List.not_mem_nil

theorem FileSection.newline_notMem_changeLines :
    ∀ line ∈ file.changeLines, '\n' ∉ line := by
  intro line member
  rw [changeLines] at member
  cases body : file.body with
  | none =>
      rw [body] at member
      cases member
  | hunks old new hunks =>
      rw [body] at member
      obtain ⟨hunk, _, inHunk⟩ := List.mem_flatMap.mp member
      exact hunk.newline_notMem line inHunk
  | binary lines =>
      rw [body] at member
      obtain ⟨binary, _, rfl⟩ := List.mem_map.mp member
      exact binary.newline_notMem

theorem pathGroups_of_quiet
    (quiet : QuietPatch patch) :
    pathGroups (linesText (patchLines patch)) = patch.flatMap FileSection.headerGroups := by
  induction patch with
  | nil => rfl
  | cons file patch ih =>
      have ⟨unmarked, oneLine⟩ := file.unmarked_gitLine
      have changes : ∀ line ∈ file.changeLines, ¬ isMarked line ∧ '\n' ∉ line :=
        fun line member => ⟨quiet file List.mem_cons_self line member,
          file.newline_notMem_changeLines line member⟩
      rw [linesText_patchLines_cons, pathGroups_unmarked unmarked oneLine,
        pathGroups_linesText file.unmarked_extended, pathGroups_bodyLines,
        pathGroups_linesText changes, List.flatMap_cons,
        ih fun other member => quiet other (List.mem_cons_of_mem _ member)]

/-! ## What the policy allows -/

/-- The text of a patch. -/
def patchTextOf (patch : List FileSection) : String :=
  String.ofList (linesText (patchLines patch))

/-- Every touched path is spelled by a header line. -/
def Spelled (patch : List FileSection) : Prop :=
  ∀ path ∈ touchedPaths patch, ∃ file ∈ patch, ∃ name ∈ file.headerFiles, Spells name.text path

/-- Every touched path is found in the text of the patch. -/
def InScope (patch : List FileSection) : Prop :=
  ∀ path ∈ touchedPaths patch, String.ofList path ∈ extractPatchPaths (patchTextOf patch)

/-- No touched path has blanks at its ends or a backslash in it. -/
def Canonical (patch : List FileSection) : Prop :=
  ∀ path ∈ touchedPaths patch, strip path = path ∧ '\\' ∉ path

/-- A patch that the policy accepts touches paths of the active work item only. -/
def ScopeConfined (patch : List FileSection) : Prop :=
  ∀ (env : PolicyEnv) (s : AgentState) (args : ToolArgs),
    s.triggerType = .pipelineFailed → env.nativeBackend = true →
    args.patchPaths = extractPatchPaths (patchTextOf patch) →
    validateToolCall env s .applyRepoPatch args = .ok () →
    ∃ item, activeWorkItem env.toPlanEnv s = some item ∧
      ∀ path ∈ touchedPaths patch, String.ofList path ∈ item.allowedPaths

theorem mem_extractPatchPaths_iff
    (text path : List Char) :
    String.ofList path ∈ extractPatchPaths (String.ofList text) ↔
      ∃ group ∈ pathGroups text, cleanPath group = some path := by
  rw [extractPatchPaths, List.mem_eraseDups, String.toList_ofList, List.mem_map]
  constructor
  · rintro ⟨found, member, same⟩
    rw [String.ofList_injective same] at member
    exact List.mem_filterMap.mp member
  · intro found
    exact ⟨path, List.mem_filterMap.mpr found, rfl⟩

theorem Spelled.inScope
    (spelled : Spelled patch) :
    InScope patch := by
  intro path touched
  obtain ⟨file, member, name, inHeader, spells⟩ := spelled path touched
  refine (mem_extractPatchPaths_iff _ path).mpr
    ⟨lineGroup (name.text.dropWhile isSpace), ?_, (cleanPath_lineGroup_iff _ _).mpr spells⟩
  exact mem_pathGroups member (List.mem_map_of_mem inHeader) (Or.inl rfl)

theorem InScope.spelled
    (covered : InScope patch)
    (quiet : QuietPatch patch) :
    Spelled patch := by
  intro path touched
  obtain ⟨group, read, clean⟩ := (mem_extractPatchPaths_iff _ path).mp (covered path touched)
  rw [pathGroups_of_quiet quiet] at read
  obtain ⟨file, member, inHeader⟩ := List.mem_flatMap.mp read
  obtain ⟨name, inNames, rfl⟩ := List.mem_map.mp inHeader
  exact ⟨file, member, name, inNames, (cleanPath_lineGroup_iff _ _).mp clean⟩

theorem safePath_eq_self
    {path : List Char}
    (trimmed : strip path = path)
    (plain : '\\' ∉ path)
    {normal : String}
    (safe : safePath (String.ofList path) = some normal) :
    normal = String.ofList path := by
  have same : (strip (String.ofList path).toList).map (fun c => if c = '\\' then '/' else c) =
      path := by
    rw [String.toList_ofList, trimmed]
    conv_rhs => rw [← List.map_id path]
    refine List.map_congr_left fun c member => ?_
    have notBackslash : c ≠ '\\' := fun isBackslash => plain (isBackslash ▸ member)
    exact if_neg notBackslash
  rw [safePath] at safe
  rw [same] at safe
  split at safe
  · cases safe
  · split at safe
    · cases safe
    · exact (Option.some.inj safe).symm

theorem allowed_of_validatePatchPaths
    {item : RepairWorkItem}
    {paths : List String}
    (accepted : validatePatchPaths item paths = .ok ()) :
    ∀ path ∈ paths, ∃ normal, normalizeRepairPath path = some normal ∧
      normal ∈ item.allowedPaths := by
  intro path member
  rw [validatePatchPaths] at accepted
  split at accepted
  · cases accepted
  · split at accepted
    · cases accepted
    · next _ _ allSafe =>
        cases safe : normalizeRepairPath path with
        | none =>
            have found := List.find?_eq_none.mp allSafe path member
            rw [safe] at found
            exact absurd rfl found
        | some normal =>
            refine ⟨normal, rfl, ?_⟩
            by_contra outside
            have inOutside : normal ∈ (paths.filterMap normalizeRepairPath).filter
                (· ∉ item.allowedPaths) :=
              List.mem_filter.mpr ⟨List.mem_filterMap.mpr ⟨path, member, safe⟩,
                decide_eq_true outside⟩
            dsimp only at accepted
            rw [if_pos (List.ne_nil_of_mem inOutside)] at accepted
            cases accepted

theorem InScope.confined
    (covered : InScope patch)
    (canonical : Canonical patch) :
    ScopeConfined patch := by
  intro env s args repairing native paths accepted
  have checked : validateNativeTool env s .applyRepoPatch args = .ok () := by
    simpa [validateToolCall, ToolName.allowedInRepair, repairing, native] using accepted
  rw [validateNativeTool] at checked
  split at checked
  · next plan item isPlan isItem =>
      refine ⟨item, isItem, ?_⟩
      split at checked
      · cases checked
      · rw [if_pos rfl, paths] at checked
        intro path touched
        obtain ⟨normal, safe, allowed⟩ :=
          allowed_of_validatePatchPaths checked _ (covered path touched)
        have ⟨trimmed, plain⟩ := canonical path touched
        rw [← safePath_eq_self trimmed plain safe]
        exact allowed
  · cases checked

/-- Paths that header lines spell are found, no others when no change looks like one, and a header
line spells the path that git takes exactly when it names it plainly. -/
theorem patch_scope_is_sound_iff
    (patch : List FileSection) :
    (Spelled patch → InScope patch ∧ (Canonical patch → ScopeConfined patch)) ∧
      (QuietPatch patch → InScope patch → Spelled patch) ∧
      ∀ file ∈ patch, ∀ name ∈ file.headerFiles, ∀ path, name.path = some path →
        (Spells name.text path ↔ NamesPlainly name.text path) := by
  refine ⟨fun spelled => ⟨spelled.inScope, fun canonical => spelled.inScope.confined canonical⟩,
    fun quiet covered => covered.spelled quiet, ?_⟩
  exact fun _ _ _ _ _ found => FileName.spells_iff found

namespace ScopeSample

/-- A name without quotes. -/
def plainName
    (text : String)
    (fits : (∀ c ∈ text.toList, c ≠ '\n' ∧ c ≠ '\r') ∧
      (∃ c ∈ text.toList, isSpace c = false) ∧ text.toList.head? ≠ some '"') : PlainName where
  text := text.toList
  oneLine := fits.1
  visible := fits.2.1
  unquoted := fits.2.2

/-- A line of a header with nothing behind the name. -/
def fileName (name : PlainName) (noTab : '\t' ∉ name.text) : FileName :=
  .plain name noTab ⟨[], List.not_mem_nil⟩ fun _ none => by cases none

def oldName : PlainName := plainName "a/src/a.py" (by decide)

def newName : PlainName := plainName "b/src/a.py" (by decide)

/-- One line of `src/a.py` is changed. -/
def change : FileSection where
  left := .plain oldName
  right := .plain newName
  extended := []
  body := .hunks (fileName oldName (by decide)) (fileName newName (by decide))
    [{ start1 := 1, start2 := 1
       body := [{ kind := .deletion, content := ⟨['x'], by decide⟩ },
         { kind := .addition, content := ⟨['y'], by decide⟩ }]
       changes := by simp }]

/-- `secret` is renamed to `other`. -/
def rename : FileSection where
  left := .plain (plainName "a/secret" (by decide))
  right := .plain (plainName "b/other" (by decide))
  extended :=
    [.similarityIndex ⟨"100%".toList, by decide⟩,
      .renameFrom (.plain (plainName "secret" (by decide))),
      .renameTo (.plain (plainName "other" (by decide)))]
  body := .none

/-- The active work item. -/
def item : RepairWorkItem where
  workItemId := "w1"
  jobNames := ["build"]
  kind := "build"
  requiredTool := "apply_repo_patch_tool"
  failureSignature := "s1"
  failureEvidence := ["e1"]
  allowedPaths := ["src/a.py"]

end ScopeSample

/-- A renamed file is not found, and the patch is accepted. -/
theorem rename_is_out_of_scope :
    (patchTextOf [ScopeSample.change, ScopeSample.rename] =
        "diff --git a/src/a.py b/src/a.py\n--- a/src/a.py\n+++ b/src/a.py\n@@ -1,1 +1,1 @@\n" ++
          "-x\n+y\ndiff --git a/secret b/other\nsimilarity index 100%\nrename from secret\n" ++
          "rename to other\n") ∧
      ¬ InScope [ScopeSample.change, ScopeSample.rename] ∧
      validatePatchPaths ScopeSample.item
          (extractPatchPaths (patchTextOf [ScopeSample.change, ScopeSample.rename])) = .ok () ∧
      touchedPaths [ScopeSample.change, ScopeSample.rename] =
        ["src/a.py".toList, "src/a.py".toList, "secret".toList, "other".toList] := by
  have paths : extractPatchPaths (patchTextOf [ScopeSample.change, ScopeSample.rename]) =
      ["src/a.py"] := by
    rw [extractPatchPaths, patchTextOf, String.toList_ofList]
    decide +kernel
  have touched : touchedPaths [ScopeSample.change, ScopeSample.rename] =
      ["src/a.py".toList, "src/a.py".toList, "secret".toList, "other".toList] := by
    decide +kernel
  refine ⟨?_, ?_, ?_, touched⟩
  · rw [patchTextOf]
    change _ = String.ofList _ ++ String.ofList _ ++ String.ofList _
    rw [← String.ofList_append, ← String.ofList_append]
    exact congrArg String.ofList (by decide +kernel)
  · intro covered
    have member := covered "secret".toList (by rw [touched]; simp)
    rw [paths, String.ofList_toList] at member
    simp at member
  · rw [paths]
    decide +kernel

theorem change_is_in_scope : InScope [ScopeSample.change] ∧ ScopeConfined [ScopeSample.change] := by
  have spelled : Spelled [ScopeSample.change] := by
    have spells : ∀ path ∈ touchedPaths [ScopeSample.change],
        Spells "a/src/a.py".toList path := by decide +kernel
    intro path touched
    exact ⟨_, List.mem_singleton_self _, _, List.mem_cons_self, spells path touched⟩
  have canonical : Canonical [ScopeSample.change] := by
    have trimmed : ∀ path ∈ touchedPaths [ScopeSample.change],
        strip path = path ∧ '\\' ∉ path := by decide +kernel
    exact trimmed
  have sound := (patch_scope_is_sound_iff [ScopeSample.change]).1 spelled
  exact ⟨sound.1, sound.2 canonical⟩

end MrAgent
