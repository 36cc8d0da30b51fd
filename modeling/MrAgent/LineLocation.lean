import MrAgent.HunkBlocks

namespace MrAgent

/-!
# Locating a snippet

`find_lines_in_new_hunk` searches the blocks of one section and returns the
first block's match that is the only one in its block. Other blocks, and other
sections, are not counted.
-/

/-- The lines of a snippet that are searched for. -/
def snippetLines (existingCode : String) : List (List Char) :=
  (splitLines existingCode).filter (strip · ≠ [])

/-- The matching windows of a block: the numbers of their first and last lines. -/
def matchingWindows (existing : List (List Char)) (block : HunkBlock) : List (Nat × Nat) :=
  (List.range (block.length + 1 - existing.length)).filterMap fun start =>
    let candidate := (block.drop start).take existing.length
    if candidate.map (strip ·.2) = existing.map strip then
      candidate.head?.bind fun first => candidate.getLast?.map fun last => (first.1, last.1)
    else none

/-- `_search_block` -/
def searchBlock (existing : List (List Char)) (block : HunkBlock) : Option (Nat × Nat) :=
  match matchingWindows existing block with
  | [only] => some only
  | _ => none

/-- `find_lines_in_new_hunk` -/
def findLinesInNewHunk
    (env : DigitEnv)
    (diff relevantFile existingCode : String) : Option (Nat × Nat) :=
  if diff = "" ∨ relevantFile = "" ∨ strip existingCode.toList = [] then none
  else
    (findFileSection diff.toList relevantFile.toList).bind fun text =>
      let existing := match snippetLines existingCode with
        | [] => [existingCode.toList]
        | lines => lines
      ((extractNewHunkBlocks env text).filter (existing.length ≤ ·.length)).findSome?
        (searchBlock existing)

/-! ## The snippet -/

variable {c : Char}

theorem exists_mem_splitLinesFrom
    {start text : List Char}
    (plain : isLineBreak c = false)
    (member : c ∈ start ∨ c ∈ text) :
    ∃ line ∈ splitLinesFrom start text, c ∈ line := by
  induction start, text using splitLinesFrom.induct with
  | case1 => exact absurd member (by simp)
  | case2 start filled =>
      rw [splitLinesFrom]
      · exact ⟨_, List.mem_cons_self, List.mem_reverse.mpr (by simpa using member)⟩
      · exact filled
  | case3 start rest ih =>
      rw [splitLinesFrom]
      by_cases inStart : c ∈ start
      · exact ⟨_, List.mem_cons_self, List.mem_reverse.mpr inStart⟩
      · have inText := member.resolve_left inStart
        have notReturn : c ≠ '\r' := fun same => by rw [same] at plain; cases plain
        have notFeed : c ≠ '\n' := fun same => by rw [same] at plain; cases plain
        rcases List.mem_cons.mp inText with same | inText
        · exact absurd same notReturn
        · rcases List.mem_cons.mp inText with same | later
          · exact absurd same notFeed
          · obtain ⟨line, inLines, found⟩ := ih (Or.inr later)
            exact ⟨line, List.mem_cons_of_mem _ inLines, found⟩
  | case4 start d rest notPair broken ih =>
      rw [splitLinesFrom, if_pos broken]
      · by_cases inStart : c ∈ start
        · exact ⟨_, List.mem_cons_self, List.mem_reverse.mpr inStart⟩
        · rcases List.mem_cons.mp (member.resolve_left inStart) with same | later
          · rw [same, broken] at plain
            cases plain
          · obtain ⟨line, inLines, found⟩ := ih (Or.inr later)
            exact ⟨line, List.mem_cons_of_mem _ inLines, found⟩
      · exact notPair
  | case5 start d rest notPair whole ih =>
      rw [splitLinesFrom, if_neg whole]
      · refine ih ?_
        rcases member with inStart | inText
        · exact Or.inl (List.mem_cons_of_mem d inStart)
        · rcases List.mem_cons.mp inText with same | later
          · exact Or.inl (same ▸ List.mem_cons_self)
          · exact Or.inr later
      · exact notPair

theorem strip_eq_nil
    {text : List Char}
    (blank : ∀ c ∈ text, isSpace c = true) :
    strip text = [] := by
  rw [strip, List.dropWhile_eq_nil_iff.mpr blank]
  rfl

theorem isSpace_of_isLineBreak
    (broken : isLineBreak c = true) :
    isSpace c = true := by
  have all : ∀ c ∈ ['\n', '\r', Char.ofNat 11, Char.ofNat 12, Char.ofNat 28, Char.ofNat 29,
      Char.ofNat 30, Char.ofNat 133, Char.ofNat 8232, Char.ofNat 8233], isSpace c = true := by
    decide
  exact all c (of_decide_eq_true broken)

theorem snippetLines_ne_nil
    {existingCode : String}
    (filled : strip existingCode.toList ≠ []) :
    snippetLines existingCode ≠ [] := by
  intro empty
  refine filled (strip_eq_nil fun c member => ?_)
  by_contra notSpace
  have plain : isLineBreak c = false := by
    rw [← Bool.not_eq_true]
    exact fun broken => notSpace (isSpace_of_isLineBreak broken)
  obtain ⟨line, isLine, inside⟩ := exists_mem_splitLinesFrom plain (Or.inr member)
  rw [snippetLines, List.filter_eq_nil_iff] at empty
  have blank : strip line = [] := by simpa using empty line isLine
  exact notSpace (isSpace_of_strip_eq_nil blank inside)

/-! ## One window -/

/-- The blocks of the sections with exactly that name. -/
def ownBlocks (env : DigitEnv) (diff relevantFile : String) : List HunkBlock :=
  ((splitByFile diff.toList).filter (·.1 = strip relevantFile.toList)).flatMap
    (extractNewHunkBlocks env ·.2)

/-- The blocks that are searched. -/
def searchedBlocks (env : DigitEnv) (diff relevantFile existingCode : String) : List HunkBlock :=
  if diff = "" ∨ relevantFile = "" ∨ strip existingCode.toList = [] then []
  else
    ((findFileSection diff.toList relevantFile.toList).map (extractNewHunkBlocks env)).getD []

/-- All matching windows of a file. -/
def allWindows
    (env : DigitEnv)
    (diff relevantFile existingCode : String) : List (Nat × Nat) :=
  (ownBlocks env diff relevantFile).flatMap (matchingWindows (snippetLines existingCode))

/-- A range is returned exactly when it is the only matching window of the file. -/
def LocatesOnly (env : DigitEnv) (diff relevantFile existingCode : String) : Prop :=
  ∀ range, findLinesInNewHunk env diff relevantFile existingCode = some range ↔
    allWindows env diff relevantFile existingCode = [range]

variable (env : DigitEnv) (diff relevantFile existingCode : String)

variable {block : HunkBlock} {existing : List (List Char)}

theorem searchBlock_eq_some_iff
    {range : Nat × Nat} :
    searchBlock existing block = some range ↔ matchingWindows existing block = [range] := by
  rw [searchBlock]
  split
  · rename_i only single
    rw [single, Option.some.injEq, List.singleton_inj]
  · rename_i several
    exact iff_of_false (fun found => by cases found) fun single => several range single

theorem searchBlock_short
    (short : block.length < existing.length) :
    searchBlock existing block = none := by
  have nothing : block.length + 1 - existing.length = 0 := by
    omega
  rw [searchBlock, matchingWindows, nothing]
  rfl

theorem findSome?_filter_length
    (existing : List (List Char))
    (blocks : List HunkBlock) :
    (blocks.filter (existing.length ≤ ·.length)).findSome? (searchBlock existing) =
      blocks.findSome? (searchBlock existing) := by
  induction blocks with
  | nil => rfl
  | cons block rest ih =>
      by_cases fits : existing.length ≤ block.length
      · rw [List.filter_cons, if_pos (decide_eq_true fits), List.findSome?_cons,
          ih, List.findSome?_cons]
      · rw [List.filter_cons, if_neg (by simpa using fits), ih,
          List.findSome?_cons, searchBlock_short (Nat.lt_of_not_le fits)]

theorem findLinesInNewHunk_eq :
    findLinesInNewHunk env diff relevantFile existingCode =
      (searchedBlocks env diff relevantFile existingCode).findSome?
        (searchBlock (snippetLines existingCode)) := by
  rw [findLinesInNewHunk, searchedBlocks]
  by_cases guard : diff = "" ∨ relevantFile = "" ∨ strip existingCode.toList = []
  · rw [if_pos guard, if_pos guard]
    rfl
  · rw [if_neg guard, if_neg guard]
    have filled := snippetLines_ne_nil fun blank => guard (Or.inr (Or.inr blank))
    cases findFileSection diff.toList relevantFile.toList with
    | none => rfl
    | some text =>
        rw [Option.bind_some, Option.map_some, Option.getD_some]
        cases lines : snippetLines existingCode with
        | nil => exact absurd lines filled
        | cons first rest => exact findSome?_filter_length (first :: rest) _

theorem searchedBlocks_own :
    (∀ block ∈ searchedBlocks env diff relevantFile existingCode,
        block ∈ ownBlocks env diff relevantFile) ∨
      ownBlocks env diff relevantFile = [] := by
  rw [searchedBlocks]
  split
  · exact Or.inl fun _ member => absurd member List.not_mem_nil
  · rw [findFileSection]
    cases exact_ : (splitByFile diff.toList).find? (·.1 = strip relevantFile.toList) with
    | some found =>
        left
        intro block member
        have inside := List.mem_of_find?_eq_some exact_
        have named := List.find?_some exact_
        exact List.mem_flatMap.mpr ⟨found, List.mem_filter.mpr ⟨inside, named⟩, member⟩
    | none =>
        right
        have others := List.find?_eq_none.mp exact_
        rw [ownBlocks, List.filter_eq_nil_iff.mpr others]
        rfl

/-- A searched block has exactly one window. -/
def SomeBlockHasOne : Prop :=
  ∃ block ∈ searchedBlocks env diff relevantFile existingCode,
    (matchingWindows (snippetLines existingCode) block).length = 1

theorem isSome_findLinesInNewHunk_iff :
    (findLinesInNewHunk env diff relevantFile existingCode).isSome = true ↔
      SomeBlockHasOne env diff relevantFile existingCode := by
  rw [findLinesInNewHunk_eq, List.findSome?_isSome_iff]
  refine exists_congr fun block => and_congr_right fun _ => ?_
  rw [Option.isSome_iff_exists, List.length_eq_one_iff]
  exact exists_congr fun range => searchBlock_eq_some_iff

/-- A location is unique exactly when a searched block with one window is the file's only one. -/
theorem line_location_is_unique_iff :
    LocatesOnly env diff relevantFile existingCode ↔
      (SomeBlockHasOne env diff relevantFile existingCode ↔
        (allWindows env diff relevantFile existingCode).length = 1) := by
  rw [← isSome_findLinesInNewHunk_iff, List.length_eq_one_iff, Option.isSome_iff_exists]
  constructor
  · exact fun only => exists_congr only
  · intro condition range
    have unique : ∀ range, findLinesInNewHunk env diff relevantFile existingCode = some range →
        allWindows env diff relevantFile existingCode = [range] := by
      intro range found
      obtain ⟨only, single⟩ := condition.mp ⟨range, found⟩
      rw [findLinesInNewHunk_eq] at found
      obtain ⟨block, isSearched, here⟩ := List.exists_of_findSome?_eq_some found
      rcases searchedBlocks_own env diff relevantFile existingCode with own | none_
      · have inside : range ∈ allWindows env diff relevantFile existingCode :=
          List.mem_flatMap.mpr ⟨block, own block isSearched, by
            rw [searchBlock_eq_some_iff.mp here]
            exact List.mem_singleton_self range⟩
        rw [single, List.mem_singleton] at inside
        rw [single, inside]
      · rw [allWindows, none_] at single
        cases single
    constructor
    · exact unique range
    · intro single
      obtain ⟨other, found⟩ := condition.mpr ⟨range, single⟩
      have same := (unique other found).symm.trans single
      rw [found, List.singleton_inj.mp same]

/-- Two hunks add the same line. -/
def repeatedLine : String :=
  "## File: 'a.py'\n\n@@ -0,0 +1 @@\n__new hunk__\n1 +x = 1\n" ++
    "\n@@ -8,0 +9 @@\n__new hunk__\n9 +x = 1"

/-- The first of two matches is returned. -/
theorem first_match_is_returned :
    findLinesInNewHunk ⟨fun _ => none⟩ repeatedLine "a.py" "x = 1" = some (1, 1) ∧
      allWindows ⟨fun _ => none⟩ repeatedLine "a.py" "x = 1" = [(1, 1), (9, 9)] ∧
      ¬ LocatesOnly ⟨fun _ => none⟩ repeatedLine "a.py" "x = 1" := by
  have found : findLinesInNewHunk ⟨fun _ => none⟩ repeatedLine "a.py" "x = 1" = some (1, 1) := by
    decide +kernel
  have windows : allWindows ⟨fun _ => none⟩ repeatedLine "a.py" "x = 1" = [(1, 1), (9, 9)] := by
    decide +kernel
  refine ⟨found, windows, fun only => ?_⟩
  have single := (only (1, 1)).mp found
  rw [windows] at single
  cases single

end MrAgent
