import MrAgent.PatchScan
import MrAgent.SeparatedText

namespace MrAgent

/-!
# What the numbers of a bounded patch count

Both scanners read the same lines. `_bounded_patch` counts every line of the
patch that starts with one plus or minus, wherever it stands, and leaves out
lines that start with three; the owner page counts all such lines behind the
first hunk header. The numbers agree where no line makes the difference.
-/

/-! ## Lines -/

/-- A line that the report counts as added, or as deleted. -/
def countsAs (sign : Char) (line : List Char) : Bool :=
  decide ([sign] <+: line) && !decide ([sign, sign, sign] <+: line)

/-- A line that the owner page counts as added, or as deleted. -/
def startsWith (sign : Char) (line : List Char) : Bool :=
  decide ([sign] <+: line)

variable {line : List Char}

theorem isHunkLine_iff :
    isHunkLine line = true ↔ ∃ rest, line = '@' :: '@' :: ' ' :: rest := by
  have start : "@@ ".toList = ['@', '@', ' '] := by decide
  rw [isHunkLine, start, decide_eq_true_eq]
  constructor
  · rintro ⟨rest, rfl⟩
    exact ⟨rest, rfl⟩
  · rintro ⟨rest, rfl⟩
    exact ⟨rest, rfl⟩

theorem isBodyLine_of_isHunkLine
    (hunk : isHunkLine line = true) :
    isBodyLine line = false := by
  obtain ⟨rest, rfl⟩ := isHunkLine_iff.mp hunk
  rfl

theorem countsAs_of_isHunkLine
    (hunk : isHunkLine line = true) :
    countsAs '+' line = false ∧ countsAs '-' line = false := by
  obtain ⟨rest, rfl⟩ := isHunkLine_iff.mp hunk
  simp [countsAs]

theorem isHunkLine_of_matchHunk
    {env : PatchEnv}
    {hunk : HunkHeader}
    (found : env.matchHunk line = some hunk) :
    isHunkLine line = true := by
  have start : "@@ -".toList = ['@', '@', ' ', '-'] := by decide
  unfold PatchEnv.matchHunk PatchEnv.dropPrefix at found
  split at found
  · rename_i behind
    rw [start] at behind
    obtain ⟨rest, rfl⟩ := behind
    exact isHunkLine_iff.mpr ⟨_, rfl⟩
  · cases found

/-- The lines before the first hunk header. -/
def PatchEnv.preamble (env : PatchEnv) (lines : List (List Char)) : List (List Char) :=
  lines.takeWhile fun line => (env.matchHunk line).isNone

/-- The lines from the first hunk header on. -/
def PatchEnv.hunkLines (env : PatchEnv) (lines : List (List Char)) : List (List Char) :=
  lines.dropWhile fun line => (env.matchHunk line).isNone

theorem PatchEnv.preamble_append_hunkLines (env : PatchEnv) (lines : List (List Char)) :
    env.preamble lines ++ env.hunkLines lines = lines :=
  List.takeWhile_append_dropWhile

/-! ## The report -/

namespace PatchScan

variable {limits : PatchLimits} {scan : PatchScan} {line : List Char}

theorem count_additions :
    (scan.count line).additions = scan.additions + (if countsAs '+' line then 1 else 0) := by
  unfold count countsAs
  split_ifs <;> simp_all

theorem count_deletions :
    (scan.count line).deletions = scan.deletions + (if countsAs '-' line then 1 else 0) := by
  unfold count countsAs
  by_cases minus : ['-'] <+: line
  · have plus : ¬ ['+'] <+: line := by
      rintro ⟨rest, rfl⟩
      simp at minus
    simp only [plus, minus, decide_true, decide_false, Bool.false_and, Bool.true_and]
    split_ifs <;> simp_all
  · simp only [minus, decide_false, Bool.false_and]
    split_ifs <;> simp_all

theorem store_additions : (scan.store limits line).additions = scan.additions := by
  unfold store
  split_ifs <;> rfl

theorem store_deletions : (scan.store limits line).deletions = scan.deletions := by
  unfold store
  split_ifs <;> rfl

theorem header_additions : (scan.header limits line).additions = scan.additions := by
  unfold header
  dsimp only
  split <;> rfl

theorem header_deletions : (scan.header limits line).deletions = scan.deletions := by
  unfold header
  dsimp only
  split <;> rfl

theorem step_additions :
    (scan.step limits line).additions = scan.additions + (if countsAs '+' line then 1 else 0) := by
  unfold step
  split
  · rename_i hunk
    simp [header_additions, (countsAs_of_isHunkLine hunk).1]
  · rw [store_additions, count_additions]

theorem step_deletions :
    (scan.step limits line).deletions = scan.deletions + (if countsAs '-' line then 1 else 0) := by
  unfold step
  split
  · rename_i hunk
    simp [header_deletions, (countsAs_of_isHunkLine hunk).2]
  · rw [store_deletions, count_deletions]

theorem count_stored :
    (scan.count line).storedLines = scan.storedLines ∧
      (scan.count line).omitted = scan.omitted := by
  unfold count
  split_ifs <;> exact ⟨rfl, rfl⟩

theorem store_accounted :
    (scan.store limits line).storedLines + (scan.store limits line).omitted =
      scan.storedLines + scan.omitted + (if isBodyLine line then 1 else 0) := by
  unfold store
  split
  · split
    · rfl
    · rfl
  · split <;> rename_i body
    · rw [if_neg (by simpa using body)]
      rfl
    · have counted : (if isBodyLine line then 1 else 0) = 1 := if_pos (by simpa using body)
      rw [counted]
      split
      · rfl
      · split
        · rfl
        · exact Nat.add_right_comm _ _ _

theorem step_accounted :
    (scan.step limits line).storedLines + (scan.step limits line).omitted =
      scan.storedLines + scan.omitted + (if isBodyLine line then 1 else 0) := by
  unfold step
  split
  · rename_i hunk
    rw [isBodyLine_of_isHunkLine hunk]
    unfold header
    dsimp only
    split <;> rfl
  · rw [store_accounted, count_stored.1, count_stored.2]

theorem foldl_counters
    (limits : PatchLimits)
    (lines : List (List Char))
    (scan : PatchScan) :
    (lines.foldl (step limits) scan).additions = scan.additions + lines.countP (countsAs '+') ∧
      (lines.foldl (step limits) scan).deletions = scan.deletions + lines.countP (countsAs '-') ∧
        (lines.foldl (step limits) scan).storedLines + (lines.foldl (step limits) scan).omitted =
          scan.storedLines + scan.omitted + lines.countP isBodyLine := by
  induction lines generalizing scan with
  | nil =>
      simp
  | cons line rest ih =>
      obtain ⟨added, deleted, accounted⟩ := ih (scan.step limits line)
      simp only [List.foldl_cons, List.countP_cons]
      rw [added, deleted, accounted, step_additions, step_deletions, step_accounted]
      omega

/-! ## Limits -/

/-- What the stored lines of a scan keep to. -/
structure Within (limits : PatchLimits) (scan : PatchScan) : Prop where
  lengths : ∀ line ∈ scan.output, line.length ≤ limits.maxChars
  bodies : (scan.output.filter isBodyLine).length = scan.storedLines
  bodyLimit : scan.storedLines ≤ limits.maxLines
  headers : (scan.output.filter (!isBodyLine ·)).length ≤ min scan.hunks limits.maxHunks
  chars : (scan.output.map (·.length + 1)).sum = scan.storedChars
  charLimit : scan.storedChars ≤ limits.maxPatchChars + 1

theorem isBodyLine_take
    {count : Nat}
    (some : 0 < count) :
    isBodyLine (line.take count) = isBodyLine line := by
  obtain ⟨count, rfl⟩ := Nat.exists_eq_succ_of_ne_zero (Nat.ne_of_gt some)
  cases line with
  | nil => rfl
  | cons first rest => rfl

theorem length_take_add
    {limit stored : Nat}
    (room : stored ≤ limits.maxPatchChars) :
    stored + (line.take (min limit (limits.maxPatchChars - stored))).length + 1 ≤
      limits.maxPatchChars + 1 := by
  have cut := List.length_take_le (min limit (limits.maxPatchChars - stored)) line
  omega

theorem Within.header
    (within : Within limits scan)
    (hunk : isHunkLine line = true) :
    Within limits (scan.header limits line) := by
  unfold PatchScan.header
  dsimp only
  split
  · rename_i room
    rw [Bool.and_eq_true, decide_eq_true_eq, decide_eq_true_eq] at room
    have positive := limits.maxCharsPositive
    have unbody : isBodyLine (line.take
        (min limits.maxChars (limits.maxPatchChars - scan.storedChars))) = false := by
      rw [isBodyLine_take (by omega), isBodyLine_of_isHunkLine hunk]
    refine ⟨?_, ?_, within.bodyLimit, ?_, ?_, length_take_add (le_of_lt room.2)⟩
    · intro other member
      rcases List.mem_append.mp member with old | new
      · exact within.lengths other old
      · rw [List.mem_singleton.mp new]
        exact le_trans (List.length_take_le _ _) (min_le_left _ _)
    · simp [List.filter_append, unbody, within.bodies]
    · have headers := within.headers
      simp only [List.filter_append, unbody, Bool.not_false, List.filter_cons_of_pos,
        List.filter_nil, List.length_append, List.length_singleton]
      omega
    · simp [within.chars, Nat.add_assoc]
  · have headers := within.headers
    exact ⟨within.lengths, within.bodies, within.bodyLimit, by dsimp only; omega, within.chars,
      within.charLimit⟩

theorem Within.count (within : Within limits scan) : Within limits (scan.count line) := by
  unfold PatchScan.count
  split_ifs
  · exact ⟨within.lengths, within.bodies, within.bodyLimit, within.headers, within.chars,
      within.charLimit⟩
  · exact ⟨within.lengths, within.bodies, within.bodyLimit, within.headers, within.chars,
      within.charLimit⟩
  · exact within

theorem Within.store (within : Within limits scan) : Within limits (scan.store limits line) := by
  have unstored : ∀ truncated, Within limits
      { scan with omitted := scan.omitted + 1, truncated := truncated } := fun _ =>
    ⟨within.lengths, within.bodies, within.bodyLimit, within.headers, within.chars,
      within.charLimit⟩
  unfold PatchScan.store
  split_ifs with skipped body notBody full short
  · exact unstored _
  · exact within
  · exact within
  · exact unstored _
  · exact unstored _
  · have positive := limits.maxCharsPositive
    have kept : isBodyLine (line.take
        (min limits.maxChars (limits.maxPatchChars - scan.storedChars))) = true := by
      rw [isBodyLine_take (by omega)]
      simpa using notBody
    refine ⟨?_, ?_, ?_, ?_, ?_, length_take_add (by omega)⟩
    · intro other member
      rcases List.mem_append.mp member with old | new
      · exact within.lengths other old
      · rw [List.mem_singleton.mp new]
        exact le_trans (List.length_take_le _ _) (min_le_left _ _)
    · simp [List.filter_append, kept, within.bodies]
    · dsimp only
      omega
    · simpa [List.filter_append, kept] using within.headers
    · simp [within.chars, Nat.add_assoc]

theorem Within.foldl
    (lines : List (List Char))
    (within : Within limits scan) :
    Within limits (lines.foldl (PatchScan.step limits) scan) := by
  induction lines generalizing scan with
  | nil =>
      exact within
  | cons line rest ih =>
      apply ih
      unfold PatchScan.step
      split
      · rename_i hunk
        exact within.header hunk
      · exact within.count.store

theorem within_empty (limits : PatchLimits) : Within limits {} where
  lengths := by simp
  bodies := rfl
  bodyLimit := Nat.zero_le _
  headers := Nat.zero_le _
  chars := rfl
  charLimit := Nat.zero_le _

end PatchScan

/-! ## The owner page -/

namespace ChangeScan

variable {env : PatchEnv} {scan : ChangeScan} {line : List Char}

theorem finishHunk_counts :
    scan.finishHunk.additions = scan.additions ∧ scan.finishHunk.deletions = scan.deletions := by
  unfold finishHunk
  split <;> exact ⟨rfl, rfl⟩

theorem step_outside
    (outside : scan.current = none)
    (unmatched : env.matchHunk line = none) :
    scan.step env line = scan := by
  unfold step
  simp [unmatched, outside]

variable (scan) in
theorem step_header
    {hunk : HunkHeader}
    (found : env.matchHunk line = some hunk) :
    (scan.step env line).current.isSome = true ∧
      (scan.step env line).additions = scan.additions ∧
        (scan.step env line).deletions = scan.deletions := by
  have same : scan.step env line = scan.enter env hunk := by
    unfold step
    rw [found]
  rw [same]
  exact ⟨rfl, finishHunk_counts⟩

variable (env line) in
theorem step_inside
    (inside : scan.current.isSome = true) :
    (scan.step env line).current.isSome = true ∧
      (scan.step env line).additions =
        scan.additions + (if startsWith '+' line then 1 else 0) ∧
      (scan.step env line).deletions =
        scan.deletions + (if startsWith '-' line then 1 else 0) := by
  cases found : env.matchHunk line with
  | some hunk =>
      obtain ⟨rest, rfl⟩ := isHunkLine_iff.mp (isHunkLine_of_matchHunk found)
      simpa [startsWith] using step_header scan found
  | none =>
      obtain ⟨lines, current⟩ := Option.isSome_iff_exists.mp inside
      cases line with
      | nil =>
          simp [step, found, current, startsWith]
      | cons first rest =>
          have start : "\\ No newline".toList = '\\' :: " No newline".toList := by decide
          simp only [step, found, current, start]
          split
          · rename_i marker
            obtain ⟨tail, same⟩ := marker
            obtain ⟨rfl, -⟩ := List.cons.inj same
            simp [startsWith, current]
          · split
            · rename_i other
              obtain ⟨-, noPlus, noMinus⟩ := other
              simp [startsWith, current, Ne.symm noPlus, Ne.symm noMinus]
            · unfold record
              split_ifs with plus minus <;> simp_all [startsWith, eq_comm]

variable (env) in
theorem foldl_inside
    (lines : List (List Char))
    (scan : ChangeScan)
    (inside : scan.current.isSome = true) :
    (lines.foldl (step env) scan).additions =
        scan.additions + lines.countP (startsWith '+') ∧
      (lines.foldl (step env) scan).deletions =
        scan.deletions + lines.countP (startsWith '-') := by
  induction lines generalizing scan with
  | nil =>
      simp
  | cons line rest ih =>
      obtain ⟨still, added, deleted⟩ := step_inside env line inside
      obtain ⟨additions, deletions⟩ := ih _ still
      simp only [List.foldl_cons, List.countP_cons]
      rw [additions, deletions, added, deleted]
      omega

variable (env) in
theorem foldl_counts
    (lines : List (List Char))
    (scan : ChangeScan)
    (outside : scan.current = none) :
    (lines.foldl (step env) scan).additions =
        scan.additions + (env.hunkLines lines).countP (startsWith '+') ∧
      (lines.foldl (step env) scan).deletions =
        scan.deletions + (env.hunkLines lines).countP (startsWith '-') := by
  induction lines with
  | nil =>
      simp [PatchEnv.hunkLines]
  | cons line rest ih =>
      cases found : env.matchHunk line with
      | none =>
          rw [List.foldl_cons, step_outside outside found, PatchEnv.hunkLines,
            List.dropWhile_cons_of_pos (by simp [found])]
          exact ih
      | some hunk =>
          obtain ⟨rest', rfl⟩ := isHunkLine_iff.mp (isHunkLine_of_matchHunk found)
          obtain ⟨entered, added, deleted⟩ := step_header scan found
          obtain ⟨additions, deletions⟩ := foldl_inside env rest _ entered
          rw [List.foldl_cons, PatchEnv.hunkLines, List.dropWhile_cons_of_neg (by simp [found]),
            additions, deletions, added, deleted]
          simp [startsWith]

end ChangeScan

theorem repairFileChangeFromPatch_counts
    {env : PatchEnv}
    {path patch changeType : String}
    {truncated : Bool}
    {omittedLines : Int}
    {change : RepairFileChange}
    (made : repairFileChangeFromPatch env path patch changeType truncated omittedLines =
      some change) :
    change.additions = (env.hunkLines (splitLines patch)).countP (startsWith '+') ∧
      change.deletions = (env.hunkLines (splitLines patch)).countP (startsWith '-') := by
  unfold repairFileChangeFromPatch at made
  obtain ⟨safe, -, rfl⟩ := Option.map_eq_some_iff.mp made
  obtain ⟨additions, deletions⟩ :=
    ChangeScan.foldl_counts env (splitLines patch) {} rfl
  dsimp only
  rw [ChangeScan.finishHunk_counts.1, ChangeScan.finishHunk_counts.2, additions, deletions]
  simp

/-! ## Agreement -/

/-- The lines of a stored patch that come from a hunk body. -/
def BoundedPatch.bodyLines (patch : BoundedPatch) : List (List Char) :=
  patch.lines.filter isBodyLine

/-- What the numbers and the text of a bounded patch promise. -/
structure PatchAccounted
    (env : PatchEnv)
    (limits : PatchLimits)
    (patch : String)
    (change : RepairFileChange) : Prop where
  additions : (boundedPatch limits patch).additions = change.additions
  deletions : (boundedPatch limits patch).deletions = change.deletions
  lineLimit : (boundedPatch limits patch).bodyLines.length ≤ limits.maxLines
  hunkLimit : ((boundedPatch limits patch).lines.filter (!isBodyLine ·)).length ≤ limits.maxHunks
  lengthLimit : ∀ line ∈ (boundedPatch limits patch).lines, line.length ≤ limits.maxChars
  charLimit : (boundedPatch limits patch).text.length ≤ limits.maxPatchChars
  accounted : (boundedPatch limits patch).bodyLines.length + (boundedPatch limits patch).omitted =
    (env.hunkLines (splitLines patch)).countP isBodyLine

theorem boundedPatch_counts
    (limits : PatchLimits)
    (patch : String) :
    (boundedPatch limits patch).additions = (splitLines patch).countP (countsAs '+') ∧
      (boundedPatch limits patch).deletions = (splitLines patch).countP (countsAs '-') ∧
        (boundedPatch limits patch).bodyLines.length + (boundedPatch limits patch).omitted =
          (splitLines patch).countP isBodyLine := by
  obtain ⟨additions, deletions, accounted⟩ :=
    PatchScan.foldl_counters limits (splitLines patch) {}
  have within := (PatchScan.within_empty limits).foldl (splitLines patch)
  refine ⟨additions.trans (Nat.zero_add _), deletions.trans (Nat.zero_add _), ?_⟩
  rw [BoundedPatch.bodyLines, boundedPatch, within.bodies, accounted]
  simp

theorem countP_split
    (env : PatchEnv)
    (lines : List (List Char))
    (property : List Char → Bool) :
    lines.countP property =
      (env.preamble lines).countP property + (env.hunkLines lines).countP property := by
  rw [← List.countP_append, env.preamble_append_hunkLines]

theorem countP_startsWith
    (sign : Char)
    (lines : List (List Char)) :
    lines.countP (startsWith sign) = lines.countP (countsAs sign) +
      lines.countP fun line => decide ([sign, sign, sign] <+: line) := by
  induction lines with
  | nil =>
      rfl
  | cons line rest ih =>
      have split : (if startsWith sign line then 1 else 0) =
          (if countsAs sign line then 1 else 0) +
            (if decide ([sign, sign, sign] <+: line) then 1 else 0) := by
        by_cases triple : [sign, sign, sign] <+: line
        · have single : [sign] <+: line := by
            obtain ⟨tail, rfl⟩ := triple
            exact ⟨sign :: sign :: tail, rfl⟩
          simp [startsWith, countsAs, triple, single]
        · simp [startsWith, countsAs, triple]
      simp only [List.countP_cons, ih, split]
      omega

theorem isBodyLine_of_countsAs
    (counts : countsAs '+' line = true ∨ countsAs '-' line = true) :
    isBodyLine line = true := by
  have prefixed : ['+'] <+: line ∨ ['-'] <+: line := by
    rcases counts with plus | minus
    · exact Or.inl (by simpa using (Bool.and_eq_true_iff.mp plus).1)
    · exact Or.inr (by simpa using (Bool.and_eq_true_iff.mp minus).1)
  rcases prefixed with ⟨rest, rfl⟩ | ⟨rest, rfl⟩ <;> rfl

/-- The counts are those of the owner page, and of all lines, exactly for patches without body
lines before the first hunk and lines of three signs behind it. -/
theorem bounded_patch_accounted_iff
    {env : PatchEnv}
    (limits : PatchLimits)
    {path patch changeType : String}
    {truncated : Bool}
    {omittedLines : Int}
    {change : RepairFileChange}
    (made : repairFileChangeFromPatch env path patch changeType truncated omittedLines =
      some change) :
    PatchAccounted env limits patch change ↔
      (∀ line ∈ env.preamble (splitLines patch), isBodyLine line = false) ∧
        ∀ line ∈ env.hunkLines (splitLines patch),
          ¬ ['+', '+', '+'] <+: line ∧ ¬ ['-', '-', '-'] <+: line := by
  obtain ⟨pageAdditions, pageDeletions⟩ := repairFileChangeFromPatch_counts made
  obtain ⟨additions, deletions, accounted⟩ := boundedPatch_counts limits patch
  have clean : (env.preamble (splitLines patch)).countP isBodyLine = 0 ↔
      ∀ line ∈ env.preamble (splitLines patch), isBodyLine line = false := by
    rw [List.countP_eq_zero]
    simp
  have single : ∀ sign, (env.hunkLines (splitLines patch)).countP
      (fun line => decide ([sign, sign, sign] <+: line)) = 0 ↔
        ∀ line ∈ env.hunkLines (splitLines patch), ¬ [sign, sign, sign] <+: line := by
    intro sign
    rw [List.countP_eq_zero]
    simp
  -- A line that counts before the first hunk is a body line there.
  have uncounted : ∀ sign, sign = '+' ∨ sign = '-' →
      (∀ line ∈ env.preamble (splitLines patch), isBodyLine line = false) →
        (env.preamble (splitLines patch)).countP (countsAs sign) = 0 := by
    intro sign either none
    rw [List.countP_eq_zero]
    intro line member counts
    have body : isBodyLine line = true := by
      rcases either with rfl | rfl
      · exact isBodyLine_of_countsAs (Or.inl counts)
      · exact isBodyLine_of_countsAs (Or.inr counts)
    rw [none line member] at body
    cases body
  have splitAdditions := countP_split env (splitLines patch) (countsAs '+')
  have splitDeletions := countP_split env (splitLines patch) (countsAs '-')
  have splitBody := countP_split env (splitLines patch) isBodyLine
  have plus := countP_startsWith '+' (env.hunkLines (splitLines patch))
  have minus := countP_startsWith '-' (env.hunkLines (splitLines patch))
  constructor
  · intro promise
    have none : (env.preamble (splitLines patch)).countP isBodyLine = 0 := by
      have all := promise.accounted
      omega
    have noPlus := uncounted '+' (Or.inl rfl) (clean.mp none)
    have noMinus := uncounted '-' (Or.inr rfl) (clean.mp none)
    have sameAdditions := promise.additions
    have sameDeletions := promise.deletions
    refine ⟨clean.mp none, fun line member => ⟨?_, ?_⟩⟩
    · exact (single '+').mp (by omega) line member
    · exact (single '-').mp (by omega) line member
  · rintro ⟨none, singles⟩
    have noBody := clean.mpr none
    have noPlus := uncounted '+' (Or.inl rfl) none
    have noMinus := uncounted '-' (Or.inr rfl) none
    have noTriplePlus := (single '+').mpr fun line member => (singles line member).1
    have noTripleMinus := (single '-').mpr fun line member => (singles line member).2
    have within := (PatchScan.within_empty limits).foldl (splitLines patch)
    refine ⟨by omega, by omega, ?_, ?_, within.lengths, ?_, by omega⟩
    · exact within.bodies.trans_le within.bodyLimit
    · exact le_trans within.headers (min_le_right _ _)
    · have chars := within.chars
      have charLimit := within.charLimit
      rw [BoundedPatch.text, SeparatedText.length_intercalate]
      change (List.map _ ((splitLines patch).foldl (PatchScan.step limits) {}).output).sum - 1 ≤ _
      omega

/-! ## Two patches -/

namespace PatchSample

/-- Texts without secrets and with plain digits. -/
def env : PatchEnv where
  redactValues := id
  redactSecrets := id
  isDecimal := Char.isDigit
  decimalValue := fun digits => digits.foldl (fun value c => 10 * value + (c.toNat - 48)) 0

def limits : PatchLimits := ⟨20, 400, 500, 48000, by decide⟩

/-- A hunk that replaces a line. -/
def replaced : String := "@@ -1,2 +1,2 @@\n-old\n+new\n same"

/-- A hunk that replaces `--i;` by `++i;`. -/
def decremented : String := "@@ -1 +1 @@\n---i;\n+++i;"

/-- What the owner page counts. -/
def pageCounts (patch : String) : Option (Nat × Nat) :=
  (repairFileChangeFromPatch env "a.cpp" patch "modified" false 0).map fun change =>
    (change.additions, change.deletions)

/-- What the report counts. -/
def reportCounts (patch : String) : Nat × Nat :=
  ((boundedPatch limits patch).additions, (boundedPatch limits patch).deletions)

end PatchSample

open PatchSample in
theorem replaced_line_accounted :
    ∃ change, repairFileChangeFromPatch env "a.cpp" replaced "modified" false 0 = some change ∧
      PatchAccounted env limits replaced change := by
  have made : (repairFileChangeFromPatch env "a.cpp" replaced "modified" false 0).isSome = true := by
    decide +kernel
  obtain ⟨change, made⟩ := Option.isSome_iff_exists.mp made
  exact ⟨change, made, (bounded_patch_accounted_iff limits made).mpr (by decide +kernel)⟩

open PatchSample in
/-- The report counts no line of a hunk that replaces `--i;` by `++i;`. -/
theorem triple_signs_uncounted :
    pageCounts decremented = some (1, 1) ∧ reportCounts decremented = (0, 0) := by
  decide +kernel

end MrAgent
