import MrAgent.TextCut

namespace MrAgent

/-!
# Paths of a patch

`extract_patch_paths` looks for lines that begin with `---` or `+++` and takes
what follows the white space for a path. White space may be line feeds: a line
that holds the marker only reads the next visible line.
-/

/-- `(?:a/|b/)?(.+)$` at a position: the group and the text behind the match. -/
def pathHere (text : List Char) : Option (List Char × List Char) :=
  let line := text.takeWhile (· ≠ '\n')
  let behind := text.dropWhile (· ≠ '\n')
  if (line.take 2 = "a/".toList ∨ line.take 2 = "b/".toList) ∧ line.drop 2 ≠ [] then
    some (line.drop 2, behind)
  else if line ≠ [] then some (line, behind)
  else none

/-- `\s*` and then the path; the longest white space is tried first. -/
def skipSpaces : List Char → Option (List Char × List Char)
  | [] => none
  | c :: rest =>
    if isSpace c then (skipSpaces rest).or (pathHere (c :: rest)) else pathHere (c :: rest)

/-- A match of `_DIFF_PATH_RE` at the start of a line. -/
def matchPath (text : List Char) : Option (List Char × List Char) :=
  if text.take 3 = "---".toList ∨ text.take 3 = "+++".toList then
    match text.drop 3 with
    | [] => none
    | c :: rest => if isSpace c then skipSpaces rest else none
  else none

/-- The text from the next line on. -/
def nextLine (text : List Char) : List Char :=
  (text.dropWhile (· ≠ '\n')).drop 1

/-- `_DIFF_PATH_RE.finditer` from the start of a line on; every match ends with a line. -/
def findPaths : Nat → List Char → List (List Char)
  | 0, _ => []
  | _, [] => []
  | fuel + 1, text =>
    match matchPath text with
    | some (group, behind) => group :: findPaths fuel (nextLine behind)
    | none => findPaths fuel (nextLine text)

/-- The path of a match; `/dev/null` is none. -/
def cleanPath (group : List Char) : Option (List Char) :=
  let raw := strip group
  if raw = "/dev/null".toList then none
  else if raw.take 2 = "a/".toList ∨ raw.take 2 = "b/".toList then some (raw.drop 2)
  else some raw

/-- The groups of all matches. -/
def pathGroups (text : List Char) : List (List Char) :=
  findPaths text.length text

/-- `extract_patch_paths` -/
def extractPatchPaths (patch : String) : List String :=
  (((pathGroups patch.toList).filterMap cleanPath).map String.ofList).eraseDups

/-! ## One line at a time -/

theorem length_nextLine_le
    (text : List Char) :
    (nextLine text).length ≤ text.length := by
  have suffix : nextLine text <:+ text :=
    (List.drop_suffix 1 _).trans (List.dropWhile_suffix _)
  exact suffix.length_le

variable {text : List Char}

theorem length_nextLine_lt
    (filled : text ≠ []) :
    (nextLine text).length < text.length := by
  cases text with
  | nil => exact absurd rfl filled
  | cons c rest =>
      by_cases newline : c = '\n'
      · rw [nextLine, List.dropWhile_cons_of_neg (by simpa using newline)]
        exact Nat.lt_succ_self _
      · rw [nextLine, List.dropWhile_cons_of_pos (by simpa using newline)]
        exact Nat.lt_succ_of_le (length_nextLine_le rest)

variable {line : List Char}

theorem nextLine_append
    (oneLine : '\n' ∉ line)
    (rest : List Char) :
    nextLine (line ++ '\n' :: rest) = rest := by
  induction line with
  | nil => rfl
  | cons c line ih =>
      have notNewline : c ≠ '\n' := fun same => oneLine (same ▸ List.mem_cons_self)
      have further := ih fun member => oneLine (List.mem_cons_of_mem _ member)
      rw [nextLine] at further ⊢
      rw [List.cons_append, List.dropWhile_cons_of_pos (by simpa using notNewline)]
      exact further

/-- What a path on a line reads: the line, or what stands behind `a/` or `b/` in it. -/
def lineGroup (line : List Char) : List Char :=
  if (line.take 2 = "a/".toList ∨ line.take 2 = "b/".toList) ∧ line.drop 2 ≠ [] then line.drop 2
  else line

theorem pathHere_append
    (oneLine : '\n' ∉ line)
    (filled : line ≠ [])
    (rest : List Char) :
    pathHere (line ++ '\n' :: rest) = some (lineGroup line, '\n' :: rest) := by
  have apart : ∀ c ∈ line, decide (c ≠ '\n') = true := by
    intro c member
    exact decide_eq_true fun same => oneLine (same ▸ member)
  have front : (line ++ '\n' :: rest).takeWhile (· ≠ '\n') = line := by
    rw [List.takeWhile_append_of_pos apart]
    simp
  have behind : (line ++ '\n' :: rest).dropWhile (· ≠ '\n') = '\n' :: rest := by
    rw [List.dropWhile_append_of_pos apart]
    simp
  rw [pathHere, front, behind, lineGroup]
  split <;> rfl

theorem skipSpaces_append
    {blanks line : List Char}
    (blank : ∀ c ∈ blanks, isSpace c = true)
    (visible : ∃ c more, line = c :: more ∧ isSpace c = false)
    (oneLine : '\n' ∉ line)
    (rest : List Char) :
    skipSpaces (blanks ++ (line ++ '\n' :: rest)) = some (lineGroup line, '\n' :: rest) := by
  have read := pathHere_append oneLine (fun none => by
    obtain ⟨c, more, same, _⟩ := visible
    rw [none] at same
    cases same) rest
  induction blanks with
  | nil =>
      obtain ⟨c, more, rfl, notSpace⟩ := visible
      rw [List.nil_append, List.cons_append, skipSpaces, if_neg (by simp [notSpace])]
      exact read
  | cons c blanks ih =>
      rw [List.cons_append, skipSpaces, if_pos (blank c List.mem_cons_self),
        ih fun other member => blank other (List.mem_cons_of_mem _ member)]
      rfl

variable {text group behind : List Char}

theorem suffix_of_pathHere
    (found : pathHere text = some (group, behind)) :
    behind <:+ text := by
  rw [pathHere] at found
  split at found
  · cases found
    exact List.dropWhile_suffix _
  · split at found
    · cases found
      exact List.dropWhile_suffix _
    · cases found

theorem suffix_of_skipSpaces
    (found : skipSpaces text = some (group, behind)) :
    behind <:+ text := by
  induction text with
  | nil => cases found
  | cons c rest ih =>
      rw [skipSpaces] at found
      split at found
      · rcases Option.or_eq_some_iff.mp found with later | ⟨_, here⟩
        · exact (ih later).trans (List.suffix_cons _ _)
        · exact suffix_of_pathHere here
      · exact suffix_of_pathHere found

theorem length_of_matchPath
    (found : matchPath text = some (group, behind)) :
    behind.length < text.length := by
  rw [matchPath] at found
  split at found
  · split at found
    · cases found
    · next c rest isRest =>
        split at found
        · have suffix := (suffix_of_skipSpaces found).length_le
          have inside := (List.drop_suffix 3 text).length_le
          rw [isRest, List.length_cons] at inside
          omega
        · cases found
  · cases found

theorem findPaths_fuel
    {fuel : Nat}
    (enough : text.length ≤ fuel) :
    findPaths fuel text = pathGroups text := by
  have all : ∀ (size : Nat) (text : List Char) (one two : Nat), text.length ≤ size →
      text.length ≤ one → text.length ≤ two → findPaths one text = findPaths two text := by
    intro size
    induction size with
    | zero =>
        intro text one two bound _ _
        rw [List.length_eq_zero_iff.mp (Nat.le_zero.mp bound)]
        cases one <;> cases two <;> rfl
    | succ size ih =>
        intro text one two bound first second
        cases text with
        | nil =>
            cases one <;> cases two <;> rfl
        | cons c rest =>
            obtain ⟨one, rfl⟩ := Nat.exists_eq_succ_of_ne_zero (Nat.ne_zero_of_lt first)
            obtain ⟨two, rfl⟩ := Nat.exists_eq_succ_of_ne_zero (Nat.ne_zero_of_lt second)
            rw [findPaths, findPaths]
            · cases found : matchPath (c :: rest) with
              | none =>
                  have shorter := length_nextLine_lt (List.cons_ne_nil c rest)
                  exact ih _ _ _ (by omega) (by omega) (by omega)
              | some pair =>
                  have shorter := length_of_matchPath found
                  have line := length_nextLine_le pair.2
                  exact congrArg (pair.1 :: ·)
                    (ih _ _ _ (by omega) (by omega) (by omega))
            · exact List.cons_ne_nil _ _
            · exact List.cons_ne_nil _ _
  exact all text.length text _ _ (Nat.le_refl _) enough (Nat.le_refl _)

theorem pathGroups_of_match
    (found : matchPath text = some (group, behind)) :
    pathGroups text = group :: pathGroups (nextLine behind) := by
  have shorter := length_of_matchPath found
  have line := length_nextLine_le behind
  have filled : text ≠ [] := by
    intro none
    rw [none] at shorter
    cases shorter
  obtain ⟨size, isSize⟩ := Nat.exists_eq_succ_of_ne_zero (Nat.ne_zero_of_lt shorter)
  rw [pathGroups, isSize, findPaths, found]
  · dsimp only
    rw [findPaths_fuel (by omega)]
  · exact filled

theorem pathGroups_of_no_match
    (none : matchPath text = none) :
    pathGroups text = pathGroups (nextLine text) := by
  cases text with
  | nil => rfl
  | cons c rest =>
      have shorter := length_nextLine_lt (List.cons_ne_nil c rest)
      rw [List.length_cons] at shorter
      rw [pathGroups, List.length_cons, findPaths, none]
      · exact findPaths_fuel (by omega)
      · exact List.cons_ne_nil _ _

/-- The line begins with one of the markers. -/
def isMarked (line : List Char) : Prop :=
  line.take 3 = "---".toList ∨ line.take 3 = "+++".toList

theorem isMarked_append
    {rest : List Char}
    (marked : isMarked (line ++ '\n' :: rest)) :
    isMarked line := by
  match line with
  | [] | [_] | [_, _] => rcases marked with dashes | pluses <;> simp_all
  | first :: second :: third :: line => exact marked

theorem pathGroups_unmarked
    (unmarked : ¬ isMarked line)
    (oneLine : '\n' ∉ line)
    (rest : List Char) :
    pathGroups (line ++ '\n' :: rest) = pathGroups rest := by
  have none : matchPath (line ++ '\n' :: rest) = none :=
    if_neg fun marked => unmarked (isMarked_append marked)
  rw [pathGroups_of_no_match none, nextLine_append oneLine]

theorem pathGroups_marked
    {marker blanks line : List Char}
    (isMarker : marker = "---".toList ∨ marker = "+++".toList)
    (space : blanks ≠ [])
    (blank : ∀ c ∈ blanks, isSpace c = true)
    (visible : ∃ c more, line = c :: more ∧ isSpace c = false)
    (oneLine : '\n' ∉ line)
    (rest : List Char) :
    pathGroups (marker ++ (blanks ++ (line ++ '\n' :: rest))) =
      lineGroup line :: pathGroups rest := by
  have length : marker.length = 3 := by
    rcases isMarker with rfl | rfl <;> rfl
  have marked : (marker ++ (blanks ++ (line ++ '\n' :: rest))).take 3 = marker := by
    rw [List.take_left' length]
  have behind : (marker ++ (blanks ++ (line ++ '\n' :: rest))).drop 3 =
      blanks ++ (line ++ '\n' :: rest) := List.drop_left' length
  have found : matchPath (marker ++ (blanks ++ (line ++ '\n' :: rest))) =
      some (lineGroup line, '\n' :: rest) := by
    rw [matchPath, marked, if_pos isMarker, behind]
    cases blanks with
    | nil => exact absurd rfl space
    | cons c blanks =>
        rw [List.cons_append]
        dsimp only
        rw [if_pos (blank c List.mem_cons_self)]
        exact skipSpaces_append (fun other member => blank other (List.mem_cons_of_mem _ member))
          visible oneLine rest
  rw [pathGroups_of_match found]
  rfl

/-! ## Reading on behind other text -/

/-- The text is empty or ends with a line. -/
def Ended (text : List Char) : Prop :=
  text = [] ∨ ∃ front, text = front ++ ['\n']

theorem Ended.append
    {first second : List Char}
    (ended : Ended first)
    (other : Ended second) :
    Ended (first ++ second) := by
  rcases other with rfl | ⟨front, rfl⟩
  · rw [List.append_nil]
    exact ended
  · exact Or.inr ⟨first ++ front, (List.append_assoc _ _ _).symm⟩

theorem Ended.of_append
    {front text : List Char}
    (ended : Ended (front ++ text)) :
    Ended text := by
  rcases text.eq_nil_or_concat' with empty | ⟨body, last, rfl⟩
  · exact Or.inl empty
  · rcases ended with none | ⟨whole, same⟩
    · exact absurd none (by simp)
    · rw [← List.append_assoc] at same
      have ⟨_, isNewline⟩ := List.append_inj' same rfl
      rw [isNewline]
      exact Or.inr ⟨body, rfl⟩

theorem Ended.split
    (ended : Ended text)
    (filled : text ≠ []) :
    ∃ line more, text = line ++ '\n' :: more ∧ '\n' ∉ line ∧ Ended more := by
  have front : ∀ c ∈ text.takeWhile (· ≠ '\n'), c ≠ '\n' := by
    intro c member
    simpa using List.mem_takeWhile_imp member
  have whole : text = text.takeWhile (· ≠ '\n') ++ text.dropWhile (· ≠ '\n') :=
    List.takeWhile_append_dropWhile.symm
  cases behind : text.dropWhile (· ≠ '\n') with
  | nil =>
      rw [behind, List.append_nil] at whole
      rcases ended with none | ⟨body, same⟩
      · exact absurd none filled
      · have last : '\n' ∈ text.takeWhile (· ≠ '\n') := by
          rw [← whole, same]
          exact List.mem_append_right _ (List.mem_singleton_self _)
        exact absurd rfl (front '\n' last)
  | cons c more =>
      have newline := List.head?_dropWhile_not (· ≠ '\n') text
      rw [behind] at newline whole
      have isNewline : c = '\n' := by simpa using newline
      rw [isNewline] at whole
      refine ⟨_, more, whole, fun member => front '\n' member rfl, ?_⟩
      have apart : text = (text.takeWhile (· ≠ '\n') ++ ['\n']) ++ more := by
        rw [List.append_assoc]
        exact whole
      exact Ended.of_append (apart ▸ ended)

theorem matchPath_tight
    {marker : List Char}
    (length : marker.length = 3)
    {c : Char}
    (visible : isSpace c = false)
    (rest : List Char) :
    matchPath (marker ++ c :: rest) = none := by
  rw [matchPath, List.drop_left' length]
  dsimp only
  rw [visible]
  split <;> rfl

theorem pathGroups_behind
    (visible : ∃ c more, line = c :: more ∧ isSpace c = false)
    (unmarked : ¬ isMarked line)
    (oneLine : '\n' ∉ line)
    (rest : List Char)
    (ended : Ended text) :
    ∃ before, pathGroups (text ++ (line ++ '\n' :: rest)) = before ++ pathGroups rest := by
  induction size : text.length using Nat.strong_induction_on generalizing text with
  | _ size ih =>
    subst size
    by_cases filled : text = []
    · rw [filled, List.nil_append, pathGroups_unmarked unmarked oneLine]
      exact ⟨[], rfl⟩
    · obtain ⟨first, more, rfl, firstLine, endedMore⟩ := ended.split filled
      have shorter : more.length < (first ++ '\n' :: more).length := by
        rw [List.length_append, List.length_cons]
        omega
      have further := ih _ shorter endedMore rfl
      have assoc : (first ++ '\n' :: more) ++ (line ++ '\n' :: rest) =
          first ++ '\n' :: (more ++ (line ++ '\n' :: rest)) := by
        rw [List.append_assoc, List.cons_append]
      rw [assoc]
      by_cases marked : isMarked first
      · obtain ⟨marker, tail, rfl, isMarker⟩ : ∃ marker tail, first = marker ++ tail ∧
            (marker = "---".toList ∨ marker = "+++".toList) :=
          ⟨first.take 3, first.drop 3, (List.take_append_drop 3 first).symm, marked⟩
        have length : marker.length = 3 := by
          rcases isMarker with rfl | rfl <;> rfl
        have endedTail : Ended (tail ++ '\n' :: more) := by
          rw [List.append_assoc] at ended
          exact ended.of_append
        have shortTail : (tail ++ '\n' :: more).length ≤
            (marker ++ tail ++ '\n' :: more).length := by
          simp only [List.length_append, List.length_cons]
          omega
        have tailSplit : tail ++ '\n' :: more =
            (tail ++ '\n' :: more).takeWhile isSpace ++
              (tail ++ '\n' :: more).dropWhile isSpace := List.takeWhile_append_dropWhile.symm
        have blank : ∀ c ∈ (tail ++ '\n' :: more).takeWhile isSpace, isSpace c = true :=
          fun c member => List.mem_takeWhile_imp member
        have text : marker ++ tail ++ '\n' :: (more ++ (line ++ '\n' :: rest)) =
            marker ++ ((tail ++ '\n' :: more) ++ (line ++ '\n' :: rest)) := by
          simp only [List.append_assoc, List.cons_append]
        cases spaces : (tail ++ '\n' :: more).takeWhile isSpace with
        | nil =>
            -- No white space follows the marker.
            rw [spaces, List.nil_append] at tailSplit
            cases behind : (tail ++ '\n' :: more).dropWhile isSpace with
            | nil =>
                rw [behind] at tailSplit
                exact absurd tailSplit (by simp)
            | cons c others =>
                have notSpace := List.head?_dropWhile_not isSpace (tail ++ '\n' :: more)
                rw [behind] at notSpace tailSplit
                have none : matchPath (marker ++ tail ++
                    '\n' :: (more ++ (line ++ '\n' :: rest))) = none := by
                  rw [text, tailSplit]
                  exact matchPath_tight length (by simpa using notSpace) _
                rw [pathGroups_of_no_match none, nextLine_append firstLine]
                exact further
        | cons space blanks =>
            have someSpace : (tail ++ '\n' :: more).takeWhile isSpace ≠ [] := by
              rw [spaces]
              exact List.cons_ne_nil _ _
            rw [text, tailSplit]
            by_cases behind : (tail ++ '\n' :: more).dropWhile isSpace = []
            · -- The marker swallows the visible line.
              rw [behind, List.append_nil,
                pathGroups_marked isMarker someSpace blank visible oneLine]
              exact ⟨[lineGroup line], rfl⟩
            · have notSpace := List.head?_dropWhile_not isSpace (tail ++ '\n' :: more)
              have endedBehind : Ended ((tail ++ '\n' :: more).dropWhile isSpace) := by
                rw [tailSplit] at endedTail
                exact endedTail.of_append
              obtain ⟨read, later, isRead, readLine, endedLater⟩ := endedBehind.split behind
              have visibleRead : ∃ c more, read = c :: more ∧ isSpace c = false := by
                cases read with
                | nil =>
                    rw [isRead] at notSpace
                    have space : isSpace '\n' = false := notSpace
                    exact absurd space (by decide)
                | cons c others =>
                    rw [isRead] at notSpace
                    exact ⟨c, others, rfl, by simpa using notSpace⟩
              have laterShort : later.length < (marker ++ tail ++ '\n' :: more).length := by
                have suffix := (List.dropWhile_suffix isSpace
                  (l := tail ++ '\n' :: more)).length_le
                rw [isRead, List.length_append, List.length_cons] at suffix
                omega
              obtain ⟨before, rest_⟩ := ih _ laterShort endedLater rfl
              rw [isRead, List.append_assoc, List.append_assoc, List.cons_append,
                pathGroups_marked isMarker someSpace blank visibleRead readLine, rest_]
              exact ⟨lineGroup read :: before, rfl⟩
      · rw [pathGroups_unmarked marked firstLine]
        exact further

end MrAgent
