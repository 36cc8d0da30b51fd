import MrAgent.DeletionHunks
import MrAgent.GreedyGroups
import MrAgent.KeySort
import MrAgent.WrittenLines

namespace MrAgent

/-!
# Diffs for several calls

A diff that is too large for one call is split. The patches are put into one
call as long as the budget allows it, files with many tokens first, and the
number of calls is limited.
-/

/-- `FilePatchInfo`, as far as its patch is packed. -/
structure PatchInfo where
  filename : String
  editType : EditType
  patch : String
  headFile : String
  tokens : Int
  /-- The summary of the file, where metadata is enabled. -/
  summary : Option (List Char)
deriving DecidableEq

/-- `OUTPUT_BUFFER_TOKENS_SOFT_THRESHOLD` -/
def softThreshold : Nat :=
  1500

/-- `handle_patch_deletions`; `none` for a deleted file. -/
def handlePatchDeletions (env : DigitEnv) (file : PatchInfo) : Option (List Char) :=
  if file.headFile = "" ∧ (file.editType = .deleted ∨ file.editType = .unknown) then none
  else some (omitDeletionHunks env (splitLines file.patch))

/-- `decouple_and_convert_to_hunks_with_lines_numbers(patch, file)` -/
def PatchInfo.numbered (env : DigitEnv) (file : PatchInfo) (patch : List Char) :
    Option (List Char) :=
  decoupleAndConvertToHunksWithLinesNumbers env (String.ofList patch)
    (some ⟨file.filename, file.editType⟩)

/-- The files of each language, those with most tokens first. -/
def sortedFiles (languages : List (List PatchInfo)) : List PatchInfo :=
  languages.flatMap (KeySort.sortedBy fun file => -file.tokens)

/-- `config.large_patch_policy` -/
inductive LargePatchPolicy where
  | skip
  | clip
  | other
deriving DecidableEq

/-- The token counter, the limit of the model and what is configured. -/
structure PackEnv where
  digits : DigitEnv
  countTokens : List Char → Nat
  promptTokens : Nat
  maxTokens : Nat
  policy : LargePatchPolicy
  addLineNumbers : Bool
  /-- `int(0.9 * (num_chars / num_input_tokens) * max_tokens)` -/
  clipLength : Nat → Nat → Int → Int
  /-- The patches and the tokens of `pr_generate_extended_diff`, unless it raises an error. -/
  extended : List (List PatchInfo) → Option (List (List Char) × Nat)

/-- The summary stands behind the first heading. -/
def addAiSummaryTopPatch (summary : List Char) : List (List Char) → List (List Char)
  | [] => []
  | line :: rest =>
    if "## File:".toList <+: line ∨ "## file:".toList <+: line then
      line :: ("### AI-generated changes summary:\n".toList ++ summary) :: rest
    else line :: addAiSummaryTopPatch summary rest

namespace PackEnv

variable (env : PackEnv)

/-- `clip_tokens(text, max_tokens, delete_last_line=True, num_input_tokens=…)` -/
def clipTokens (text : List Char) (maxTokens : Int) (inputTokens : Nat) : List Char :=
  if text = [] ∨ inputTokens ≤ maxTokens then text
  else
    let length := env.clipLength text.length inputTokens maxTokens
    if maxTokens < 0 ∨ length ≤ 0 then []
    else
      let clipped := text.take length.toNat
      let lines :=
        if '\n' ∈ clipped then ((clipped.reverse.dropWhile (· ≠ '\n')).drop 1).reverse else clipped
      lines ++ "\n...(truncated)".toList

/-- A patch alone exceeds the budget. -/
def tooLarge (patch : List Char) : Bool :=
  patch ≠ [] && env.maxTokens < env.promptTokens + env.countTokens patch + softThreshold

/-- The patch under the heading of its file; `none` when the converter raises an error. -/
def written (file : PatchInfo) (patch : List Char) : Option (List Char) :=
  let headed :=
    if env.addLineNumbers then file.numbered env.digits patch
    else
      some ("\n\n## File: '".toList ++ strip file.filename.toList ++ "'\n\n".toList ++
        strip patch ++ ['\n'])
  match file.summary with
  | none => headed
  | some summary =>
    headed.map fun text => ['\n'].intercalate (addAiSummaryTopPatch summary (text.splitOn '\n'))

end PackEnv

/-! ## Patches that are written -/

/-- A text shows something. -/
def ShowsText (text : List Char) : Prop :=
  ∃ c ∈ text, isSpace c = false

variable {text : List Char}

variable {c : Char}

theorem mem_rstrip
    (shown : isSpace c = false)
    (text : List Char) :
    c ∈ rstrip text ↔ c ∈ text := by
  refine ⟨fun member => (rstrip_isPrefix text).subset member, fun member => ?_⟩
  induction text using List.reverseRecOn with
  | nil => cases member
  | append_singleton front last ih =>
      by_cases space : isSpace last = true
      · have apart : c ≠ last := fun same => by
          rw [same, space] at shown
          cases shown
        rw [rstrip, List.rdropWhile_concat_pos _ _ _ space]
        exact ih (by simpa [apart] using member)
      · rw [rstrip, List.rdropWhile_concat_neg _ _ _ space]
        exact member

variable {lines : List (List Char)}

theorem mem_foldl_append
    (shown : isSpace c = false)
    (hunks : List NumberedHunk)
    (member : c ∈ text) :
    c ∈ hunks.foldl NumberedHunk.append text := by
  induction hunks generalizing text with
  | nil => exact member
  | cons hunk rest ih =>
      refine ih ?_
      simp only [NumberedHunk.append, NumberedHunk.appendLines]
      split_ifs <;> simp [mem_rstrip shown, member]

/-- Lines that a conversion takes. -/
def Readable (env : DigitEnv) (line : List Char) : Prop :=
  unbroken line = true ∧ (startsHeader line = true → (env.matchHeader line).isSome)

/-- The lines that were collected can be read. -/
def DeletionScan.AllReadable (env : DigitEnv) (scan : DeletionScan) : Prop :=
  ∀ line ∈ scan.addedPatched ++ scan.tempHunk, Readable env line

theorem DeletionScan.AllReadable.step
    {env : DigitEnv}
    {scan : DeletionScan}
    (before : scan.AllReadable env)
    {line : List Char}
    (whole : unbroken line = true) :
    (scan.step env line).AllReadable env := by
  have finished : scan.finish.AllReadable env := by
    rw [DeletionScan.finish]
    split
    · simpa [AllReadable] using before
    · exact before
  have collected : ∀ earlier : DeletionScan, earlier.AllReadable env → Readable env line →
      (earlier.collect line).AllReadable env := by
    intro earlier all readable other member
    rw [DeletionScan.collect, ← List.append_assoc] at member
    rcases List.mem_append.mp member with early | last
    · exact all other early
    · rw [List.mem_singleton.mp last]
      exact readable
  rw [DeletionScan.step]
  split
  · cases matched : env.matchHeader line with
    | none => exact before
    | some found =>
        exact collected scan.finish finished ⟨whole, fun _ => by rw [matched]; rfl⟩
  · next plain =>
      have readable : Readable env line := ⟨whole, fun headed => absurd headed plain⟩
      split
      · exact collected scan before readable
      · exact collected scan before readable

theorem readable_intercalate
    {env : DigitEnv}
    (readable : ∀ line ∈ lines, Readable env line) :
    ∀ line ∈ splitLines (String.ofList (['\n'].intercalate lines)), Readable env line := by
  intro line member
  rw [splitLines, String.toList_ofList,
    splitLinesFrom_intercalate fun other inside => (readable other inside).1] at member
  split at member
  · exact readable line (List.dropLast_subset _ member)
  · exact readable line member

variable {patch : List Char}

theorem readable_of_handlePatchDeletions
    {env : DigitEnv}
    {file : PatchInfo}
    (kept : handlePatchDeletions env file = some patch) :
    ∀ line ∈ splitLines (String.ofList patch), Readable env line := by
  have scanned : ∀ (lines : List (List Char)) (scan : DeletionScan),
      (∀ line ∈ lines, unbroken line = true) → scan.AllReadable env →
        (lines.foldl (DeletionScan.step env) scan).AllReadable env := by
    intro lines
    induction lines with
    | nil => exact fun _ _ before => before
    | cons line rest ih =>
        intro scan whole before
        obtain ⟨here, further⟩ := List.forall_mem_cons.mp whole
        exact ih _ further (before.step here)
  have all := scanned (splitLines file.patch) {}
    (fun line member => unbroken_of_mem_splitLines member) (fun _ none => by cases none)
  rw [handlePatchDeletions] at kept
  split at kept
  · cases kept
  · rw [← Option.some.inj kept, omitDeletionHunks]
    refine readable_intercalate ?_
    split
    · exact all
    · exact fun line member => all line (List.mem_append_left _ member)

theorem ConvertScan.run_isSome
    {env : DigitEnv}
    (readable : ∀ line ∈ lines, Readable env line)
    (scan : ConvertScan)
    (isFirst : Bool) :
    (scan.run env isFirst lines).isSome := by
  induction lines generalizing scan isFirst with
  | nil => rfl
  | cons line rest ih =>
      obtain ⟨here, further⟩ := List.forall_mem_cons.mp readable
      rw [ConvertScan.run]
      split
      · exact ih further _ _
      · split
        · next headed =>
            obtain ⟨found, matched⟩ := Option.isSome_iff_exists.mp (here.2 headed)
            rw [matched]
            exact ih further _ _
        · split
          · exact ih further _ _
          · exact ih further _ _

theorem PatchInfo.numbered_spec
    {env : DigitEnv}
    (file : PatchInfo)
    (readable : ∀ line ∈ splitLines (String.ofList patch), Readable env line) :
    ∃ text, file.numbered env patch = some text ∧ ShowsText text := by
  have hash : ∀ start name quote : List Char, '#' ∈ start → '#' ∈ start ++ name ++ quote :=
    fun start name quote member => List.mem_append_left _ (List.mem_append_left _ member)
  have visible : ∀ hunks, ShowsText (writtenText (some ⟨file.filename, file.editType⟩) hunks) := by
    intro hunks
    rw [writtenText]
    refine ⟨'#', ?_, by decide⟩
    split
    · exact hash _ _ _ (by decide)
    · exact (mem_rstrip (by decide) _).mpr
        (mem_foldl_append (by decide) hunks (hash _ _ _ (by decide)))
  obtain ⟨text, converted⟩ : ∃ text, file.numbered env patch = some text := by
    rw [numbered, decoupleAndConvertToHunksWithLinesNumbers]
    split
    · exact ⟨_, rfl⟩
    · obtain ⟨scan, found⟩ := Option.isSome_iff_exists.mp
        (ConvertScan.run_isSome readable _ true)
      exact ⟨scan.close, by rw [found]; rfl⟩
  refine ⟨text, converted, ?_⟩
  rw [numbered, decouple_eq, Option.map_eq_some_iff] at converted
  obtain ⟨hunks, _, same⟩ := converted
  rw [← same]
  exact visible hunks

/-! ## The groups -/

namespace PackEnv

variable {env : PackEnv}

variable {patch : List Char}

variable (env) in
/-- The tokens of some patches and the prompt. -/
def groupTokens (patches : List (List Char)) : Nat :=
  env.promptTokens + (patches.map env.countTokens).sum

variable (env) in
/-- A patch, clipped if it is too large and the policy says so. -/
def clipped (patch : List Char) : List Char :=
  if env.policy = .clip ∧ env.tooLarge patch = true then
    env.clipTokens patch (env.maxTokens - softThreshold - env.promptTokens) (env.countTokens patch)
  else patch

variable (env) in
/-- The patch of a file, possibly clipped. -/
def offered (file : PatchInfo) : Option (List Char) :=
  if file.patch = "" then none
  else ((handlePatchDeletions env.digits file).bind (env.written file)).map env.clipped

variable (env) in
/-- A patch stays within the budget when it is alone. -/
def small (patch : List Char) : Bool :=
  patch ≠ [] && env.promptTokens + env.countTokens patch + softThreshold ≤ env.maxTokens

variable (env) in
def patchOf (file : PatchInfo) : List Char :=
  (env.offered file).getD []

variable (env) in
/-- Files whose patches stay within the budget. -/
def fits (files : List PatchInfo) : Bool :=
  env.groupTokens (files.map env.patchOf) + softThreshold ≤ env.maxTokens

end PackEnv

namespace PackSample

/-- A file in which one line is changed. -/
def file (name : String) : PatchInfo :=
  { filename := name, editType := .modified, patch := "@@ -1 +1 @@\n-x\n+y", headFile := "y"
    tokens := 37, summary := none }

/-- Characters are counted; two of the patches are too much. -/
def env : PackEnv where
  digits := asciiDigits
  countTokens := List.length
  promptTokens := 10
  maxTokens := 1560
  policy := .skip
  addLineNumbers := false
  clipLength := fun chars tokens maxTokens => 9 * chars * maxTokens / (10 * tokens)
  extended := fun _ =>
    some (["\n\n## File: 'a.py'\n\n@@ -1 +1 @@\n-x\n+y\n".toList,
      "\n\n## File: 'b.py'\n\n@@ -1 +1 @@\n-x\n+y\n".toList], 84)

end PackSample

end MrAgent
