import Mathlib
import MrAgent.MultiDiff

namespace MrAgent

/-!
# The compressed diff

A file that does not fit into a call waits for the next one. A file that finds
the tokens of the call used up does not wait: it is in no list any more.
-/

/-- `OUTPUT_BUFFER_TOKENS_HARD_THRESHOLD` -/
def hardThreshold : Nat :=
  1000

/-- The changed files by language; their names are distinct. -/
structure ChangedFiles where
  languages : List (List PatchInfo)
  distinct : (languages.flatten.map (·.filename)).Nodup

/-- An entry of `file_dict`. -/
structure PatchData where
  filename : String
  patch : List Char
  tokens : Nat

/-- What `generate_full_patch` returns. -/
structure FullPatch where
  totalTokens : Nat
  patches : List (List Char) := []
  remaining : List String := []
  filesInPatch : List String := []

/-- The token counter, the limit of the model and what is configured. -/
structure CompressEnv where
  digits : DigitEnv
  countTokens : List Char → Nat
  promptTokens : Nat
  maxTokens : Nat
  /-- `pr_description.max_ai_calls` -/
  maxAiCalls : Int
  convert : Bool
  /-- Imports are looked at in a file, and an added line of it imports a foreign module. -/
  checksImports : PatchInfo → Bool
  foreignImport : PatchInfo → List Char → Bool

/-- What `pr_generate_compressed_diff` returns; the groups carry patches, tokens and files. -/
structure CompressedDiff where
  groups : List FullPatch
  deletedFiles : List String
  remainingFiles : List String
  fileDict : List PatchData

namespace CompressEnv

variable (env : CompressEnv)

/-- `_strip_third_party_import_lines` -/
def stripThirdPartyImportLines (file : PatchInfo) (patch : List Char) : List Char :=
  if env.checksImports file then
    ['\n'].intercalate
      ((splitLines (String.ofList patch)).filter fun line => !env.foreignImport file line)
  else patch

/-- The entry of a file, if it has a patch; `none` when the conversion raises an error. -/
def fileEntry (file : PatchInfo) : Option (Option PatchData) :=
  if file.patch = "" then some none
  else
    match handlePatchDeletions env.digits file with
    | none => some none
    | some kept =>
      let patch := env.stripThirdPartyImportLines file kept
      (if env.convert then file.numbered env.digits patch else some patch).map fun patch =>
        some ⟨file.filename, patch, env.countTokens patch⟩

/-- `patch_final` -/
def finalPatch (data : PatchData) : List Char :=
  if env.convert then "\n\n".toList ++ strip data.patch
  else
    "\n\n## File: '".toList ++ strip data.filename.toList ++ "'\n\n".toList ++ strip data.patch ++
      ['\n']

/-- The body of the loop over `file_dict`. -/
def pack (previous : List String) (full : FullPatch) (data : PatchData) : FullPatch :=
  if data.filename ∉ previous then full
  -- the hard stop: the file is not put back
  else if env.maxTokens < full.totalTokens + hardThreshold then full
  else if env.maxTokens < full.totalTokens + data.tokens + softThreshold then
    { full with remaining := full.remaining ++ [data.filename] }
  else if data.patch = [] then full
  else
    { full with
      patches := full.patches ++ [env.finalPatch data]
      totalTokens := full.totalTokens + env.countTokens (env.finalPatch data)
      filesInPatch := full.filesInPatch ++ [data.filename] }

/-- `generate_full_patch` -/
def generateFullPatch (fileDict : List PatchData) (previous : List String) : FullPatch :=
  fileDict.foldl (env.pack previous) { totalTokens := env.promptTokens }

/-- The additional iterations, and the files that remain. -/
def iterate (fileDict : List PatchData) : Nat → List String → List FullPatch × List String
  | 0, remaining => ([], remaining)
  | count + 1, remaining =>
    if remaining = [] then ([], remaining)
    else
      let full := env.generateFullPatch fileDict remaining
      let later := iterate fileDict count full.remaining
      (if full.patches = [] then later.1 else full :: later.1, later.2)

/-- `pr_generate_compressed_diff`; `none` when a conversion raises an error. -/
def prGenerateCompressedDiff (files : ChangedFiles) (largePrHandling : Bool) :
    Option CompressedDiff :=
  let sorted := sortedFiles files.languages
  (sorted.mapM env.fileEntry).map fun entries =>
    let fileDict := entries.reduceOption
    let first := env.generateFullPatch fileDict (sorted.map (·.filename))
    let later := env.iterate fileDict
      (if largePrHandling then (env.maxAiCalls - 2).toNat else 0) first.remaining
    { groups := first :: later.1
      deletedFiles := (sorted.filter fun file =>
        file.patch ≠ "" ∧ handlePatchDeletions env.digits file = none).map (·.filename)
      remainingFiles := later.2
      fileDict }

/-- Each file with a patch is in one place, unless its text has become empty. -/
def KeepsFiles (files : ChangedFiles) (result : CompressedDiff) : Prop :=
  ∀ file ∈ files.languages.flatten, file.patch ≠ "" →
    (∀ data, env.fileEntry file = some (some data) → data.patch ≠ []) →
      result.deletedFiles.count file.filename +
        (result.groups.flatMap (·.filesInPatch)).count file.filename +
          result.remainingFiles.count file.filename = 1

/-- The tokens that are used when the loop reaches a file. -/
def totalBefore (fileDict : List PatchData) (previous : List String) (name : String) : Nat :=
  (env.generateFullPatch (fileDict.takeWhile (·.filename ≠ name)) previous).totalTokens

/-- A file that waits finds the tokens used up in one of some calls. -/
def MeetsStop (fileDict : List PatchData) (name : String) : Nat → List String → Prop
  | 0, _ => False
  | count + 1, previous =>
    name ∈ previous ∧ (env.maxTokens < env.totalBefore fileDict previous name + hardThreshold ∨
      MeetsStop fileDict name count (env.generateFullPatch fileDict previous).remaining)

variable {env}

theorem fileEntry_spec
    (env : CompressEnv)
    (file : PatchInfo) :
    ∃ entry, env.fileEntry file = some entry ∧ (∀ data ∈ entry, data.filename = file.filename) ∧
      (entry = none ↔ file.patch = "" ∨ handlePatchDeletions env.digits file = none) := by
  rw [fileEntry]
  split
  · next empty => exact ⟨none, rfl, (fun _ found => by cases found), by simp [empty]⟩
  · next filled =>
      cases kept : handlePatchDeletions env.digits file with
      | none => exact ⟨none, rfl, (fun _ found => by cases found), by simp⟩
      | some patch =>
          have readable := readable_of_handlePatchDeletions kept
          have stripped : ∀ line ∈ splitLines (String.ofList
              (env.stripThirdPartyImportLines file patch)), Readable env.digits line := by
            rw [stripThirdPartyImportLines]
            split
            · exact readable_intercalate fun line member =>
                readable line (List.mem_of_mem_filter member)
            · exact readable
          obtain ⟨text, converted, _⟩ := file.numbered_spec stripped
          dsimp only
          rw [converted]
          split
          · exact ⟨_, rfl, (fun data found => by cases found; rfl), by simp [filled]⟩
          · exact ⟨_, rfl, (fun data found => by cases found; rfl), by simp [filled]⟩

/-! ## One call -/

variable {name : String}

theorem count_foldl_pack
    (env : CompressEnv)
    (previous : List String)
    {entries : List PatchData}
    (absent : name ∉ entries.map (·.filename))
    (full : FullPatch) :
    (entries.foldl (env.pack previous) full).filesInPatch.count name =
        full.filesInPatch.count name ∧
      (entries.foldl (env.pack previous) full).remaining.count name =
        full.remaining.count name := by
  induction entries generalizing full with
  | nil => exact ⟨rfl, rfl⟩
  | cons data rest ih =>
      rw [List.map_cons, List.mem_cons, not_or] at absent
      have here : (env.pack previous full data).filesInPatch.count name =
            full.filesInPatch.count name ∧
          (env.pack previous full data).remaining.count name = full.remaining.count name := by
        unfold pack
        split_ifs <;> simp [List.count_append, Ne.symm absent.1]
      obtain ⟨files, remaining⟩ := ih absent.2 (env.pack previous full data)
      exact ⟨files.trans here.1, remaining.trans here.2⟩

variable {fileDict : List PatchData} {data : PatchData}

variable {previous : List String}

theorem count_pack
    {full : FullPatch}
    (files : full.filesInPatch.count data.filename = 0)
    (remaining : full.remaining.count data.filename = 0) :
    let after := env.pack previous full data
    let open_ := data.filename ∈ previous ∧ ¬ env.maxTokens < full.totalTokens + hardThreshold
    (data.patch = [] → after.filesInPatch.count data.filename = 0) ∧
      (¬ open_ → after.filesInPatch.count data.filename = 0 ∧
        after.remaining.count data.filename = 0) ∧
      (open_ → data.patch ≠ [] →
        after.filesInPatch.count data.filename + after.remaining.count data.filename = 1) := by
  dsimp only
  by_cases held : data.filename ∈ previous ∧ ¬ env.maxTokens < full.totalTokens + hardThreshold
  · rw [pack, if_neg (not_not.mpr held.1), if_neg held.2]
    split
    · refine ⟨fun _ => files, fun closed => absurd held closed, fun _ _ => ?_⟩
      rw [files, List.count_append, remaining, List.count_singleton_self]
    · split
      · next empty => exact ⟨fun _ => files, fun closed => absurd held closed,
          fun _ filled => absurd empty filled⟩
      · next filled =>
          refine ⟨fun empty => absurd empty filled, fun closed => absurd held closed,
            fun _ _ => ?_⟩
          rw [remaining, List.count_append, files, List.count_singleton_self]
  · have same : env.pack previous full data = full := by
      rw [pack]
      split
      · rfl
      · next waits => exact if_pos (not_not.mp fun stop => held ⟨not_not.mp waits, stop⟩)
    rw [same]
    exact ⟨fun _ => files, fun _ => ⟨files, remaining⟩, fun open_ => absurd open_ held⟩

theorem count_generateFullPatch
    (env : CompressEnv)
    (distinct : (fileDict.map (·.filename)).Nodup)
    (member : data ∈ fileDict)
    (previous : List String) :
    let full := env.generateFullPatch fileDict previous
    let open_ := data.filename ∈ previous ∧
      ¬ env.maxTokens < env.totalBefore fileDict previous data.filename + hardThreshold
    (data.patch = [] → full.filesInPatch.count data.filename = 0) ∧
      (¬ open_ → full.filesInPatch.count data.filename = 0 ∧
        full.remaining.count data.filename = 0) ∧
      (open_ → data.patch ≠ [] →
        full.filesInPatch.count data.filename + full.remaining.count data.filename = 1) := by
  obtain ⟨front, back, rfl⟩ := List.append_of_mem member
  rw [List.map_append, List.map_cons, List.nodup_append, List.nodup_cons] at distinct
  have before : data.filename ∉ front.map (·.filename) :=
    fun inside => distinct.2.2 _ inside _ List.mem_cons_self rfl
  have start : (front ++ data :: back).takeWhile (·.filename ≠ data.filename) = front := by
    rw [List.takeWhile_append_of_pos, List.takeWhile_cons_of_neg (by simp), List.append_nil]
    intro other inside
    rw [decide_eq_true_iff]
    exact fun same => before (List.mem_map.mpr ⟨other, inside, same⟩)
  obtain ⟨noFiles, noRemaining⟩ := count_foldl_pack env previous before
    { totalTokens := env.promptTokens }
  obtain ⟨files, remaining⟩ := count_foldl_pack env previous
    distinct.2.1.1 (env.pack previous (front.foldl (env.pack previous)
      { totalTokens := env.promptTokens }) data)
  rw [totalBefore, start, generateFullPatch, generateFullPatch, List.foldl_append, List.foldl_cons]
  dsimp only
  rw [files, remaining]
  exact count_pack noFiles noRemaining

theorem filesInPatch_eq_nil
    (previous : List String)
    (none : (env.generateFullPatch fileDict previous).patches = []) :
    (env.generateFullPatch fileDict previous).filesInPatch = [] := by
  have lengths : ∀ (entries : List PatchData) (full : FullPatch),
      full.patches.length = full.filesInPatch.length →
        (entries.foldl (env.pack previous) full).patches.length =
          (entries.foldl (env.pack previous) full).filesInPatch.length := by
    intro entries
    induction entries with
    | nil => exact fun _ same => same
    | cons data rest ih =>
        intro full same
        refine ih _ ?_
        unfold pack
        split_ifs <;> simp [same]
  have same := lengths fileDict { totalTokens := env.promptTokens } rfl
  rw [← generateFullPatch, none] at same
  exact List.length_eq_zero_iff.mp same.symm

/-! ## All calls -/

/-- How often a file is in the groups or remains. -/
def placed (name : String) (groups : List FullPatch) (remaining : List String) : Nat :=
  (groups.flatMap (·.filesInPatch)).count name + remaining.count name

/-- A file that waits is placed once, unless it meets the stop. -/
def Places (env : CompressEnv) (fileDict : List PatchData) (data : PatchData) (count : Nat)
    (previous : List String) (groups : List FullPatch) (remaining : List String) : Prop :=
  (data.patch = [] → (groups.flatMap (·.filesInPatch)).count data.filename = 0) ∧
    (data.patch ≠ [] → previous.count data.filename ≤ 1 →
      (env.MeetsStop fileDict data.filename count previous →
        placed data.filename groups remaining = 0) ∧
      (¬ env.MeetsStop fileDict data.filename count previous →
        placed data.filename groups remaining = previous.count data.filename))

variable {count : Nat}

theorem mem_of_meetsStop
    (meets : env.MeetsStop fileDict name count previous) :
    1 ≤ previous.count name := by
  cases count with
  | zero => cases meets
  | succ count => exact List.count_pos_iff.mpr meets.1

theorem Places.call
    (distinct : (fileDict.map (·.filename)).Nodup)
    (member : data ∈ fileDict)
    {groups : List FullPatch}
    {remaining : List String}
    (later : Places env fileDict data count (env.generateFullPatch fileDict previous).remaining
      groups remaining) :
    Places env fileDict data (count + 1) previous
      (env.generateFullPatch fileDict previous :: groups) remaining := by
  obtain ⟨emptied, closed, open_⟩ := count_generateFullPatch env distinct member previous
  refine ⟨fun empty => ?_, fun filled once => ?_⟩
  · rw [List.flatMap_cons, List.count_append, emptied empty, later.1 empty]
  · have sum : placed data.filename (env.generateFullPatch fileDict previous :: groups) remaining =
        (env.generateFullPatch fileDict previous).filesInPatch.count data.filename +
          placed data.filename groups remaining := by
      rw [placed, placed, List.flatMap_cons, List.count_append, Nat.add_assoc]
    have few : (env.generateFullPatch fileDict previous).remaining.count data.filename ≤ 1 := by
      by_cases held : data.filename ∈ previous ∧
          ¬ env.maxTokens < env.totalBefore fileDict previous data.filename + hardThreshold
      · have one := open_ held filled
        omega
      · rw [(closed held).2]
        exact Nat.zero_le 1
    obtain ⟨lost, kept⟩ := later.2 filled few
    rw [sum, MeetsStop]
    by_cases waits : data.filename ∈ previous
    · have one : previous.count data.filename = 1 :=
        Nat.le_antisymm once (List.count_pos_iff.mpr waits)
      by_cases stop : env.maxTokens <
          env.totalBefore fileDict previous data.filename + hardThreshold
      · have out := closed fun held => held.2 stop
        refine ⟨fun _ => ?_, fun free => absurd ⟨waits, Or.inl stop⟩ free⟩
        by_cases meets : env.MeetsStop fileDict data.filename count
            (env.generateFullPatch fileDict previous).remaining
        · rw [out.1, lost meets]
        · rw [out.1, kept meets, out.2]
      · have inside := open_ ⟨waits, stop⟩ filled
        refine ⟨fun meets => ?_, fun free => ?_⟩
        · have after := meets.2.resolve_left stop
          have still := mem_of_meetsStop after
          rw [lost after]
          omega
        · rw [kept fun meets => free ⟨waits, Or.inr meets⟩, one]
          exact inside
    · have out := closed fun held => waits held.1
      have absent : previous.count data.filename = 0 := List.count_eq_zero.mpr waits
      have free : ¬ env.MeetsStop fileDict data.filename count
          (env.generateFullPatch fileDict previous).remaining := by
        intro meets
        have still := mem_of_meetsStop meets
        omega
      rw [out.1, kept free, out.2, absent]
      exact ⟨fun _ => rfl, fun _ => rfl⟩

theorem places_iterate
    (distinct : (fileDict.map (·.filename)).Nodup)
    (member : data ∈ fileDict)
    (count : Nat)
    (previous : List String) :
    Places env fileDict data count previous (env.iterate fileDict count previous).1
      (env.iterate fileDict count previous).2 := by
  induction count generalizing previous with
  | zero =>
      exact ⟨fun _ => rfl, fun _ _ => ⟨fun meets => meets.elim, fun _ => Nat.zero_add _⟩⟩
  | succ count ih =>
      rw [iterate]
      split
      · next none =>
          have unmet : ¬ env.MeetsStop fileDict data.filename (count + 1) previous := by
            intro meets
            rw [none] at meets
            cases meets.1
          exact ⟨fun _ => rfl, fun _ _ => ⟨fun meets => absurd meets unmet,
            fun _ => Nat.zero_add _⟩⟩
      · have whole := Places.call distinct member
          (ih (env.generateFullPatch fileDict previous).remaining)
        dsimp only
        split
        · next none =>
            have nothing := filesInPatch_eq_nil previous none
            simpa [Places, placed, nothing] using whole
        · exact whole

theorem placed_iterate_absent
    (env : CompressEnv)
    (absent : name ∉ fileDict.map (·.filename))
    (count : Nat)
    (out : previous.count name = 0) :
    placed name (env.iterate fileDict count previous).1 (env.iterate fileDict count previous).2 =
      0 := by
  induction count generalizing previous with
  | zero => rw [iterate, placed, List.flatMap_nil, List.count_nil, out]
  | succ count ih =>
      rw [iterate]
      split
      · rw [placed, List.flatMap_nil, List.count_nil, out]
      · obtain ⟨files, remaining⟩ :
            (env.generateFullPatch fileDict previous).filesInPatch.count name = 0 ∧
              (env.generateFullPatch fileDict previous).remaining.count name = 0 :=
          count_foldl_pack env previous absent _
        have later := ih remaining
        rw [placed, Nat.add_eq_zero_iff] at later ⊢
        dsimp only
        split
        · exact later
        · rw [List.flatMap_cons, List.count_append, later.1, files]
          exact ⟨rfl, later.2⟩

theorem sortedFiles_perm
    (languages : List (List PatchInfo)) :
    (sortedFiles languages).Perm languages.flatten := by
  induction languages with
  | nil => exact List.Perm.refl _
  | cons files rest ih =>
      exact (KeySort.sortedBy_perm _ files).append ih

/--
No file is in two groups. Each file is in one place exactly if no file with a
text meets the hard stop while it waits.
-/
theorem compressed_diff_keeps_files_iff
    (env : CompressEnv)
    (files : ChangedFiles)
    (largePrHandling : Bool) :
    ∃ result, env.prGenerateCompressedDiff files largePrHandling = some result ∧
      (result.groups.flatMap (·.filesInPatch)).Nodup ∧
      (env.KeepsFiles files result ↔ ∀ data ∈ result.fileDict, data.patch ≠ [] →
        ¬ env.MeetsStop result.fileDict data.filename
          ((if largePrHandling then (env.maxAiCalls - 2).toNat else 0) + 1)
          ((sortedFiles files.languages).map (·.filename))) := by
  choose entry same named blank using fileEntry_spec env
  have perm := sortedFiles_perm files.languages
  have names : ((sortedFiles files.languages).map (·.filename)).Nodup :=
    (perm.map _).nodup_iff.mpr files.distinct
  have apart : ∀ file ∈ sortedFiles files.languages, ∀ other ∈ sortedFiles files.languages,
      file.filename = other.filename → file = other :=
    fun _ member _ otherMember equal => List.inj_on_of_nodup_map names member otherMember equal
  obtain ⟨fileDict, isDict⟩ : ∃ fileDict, fileDict =
      ((sortedFiles files.languages).map entry).reduceOption := ⟨_, rfl⟩
  have inDict : ∀ data, data ∈ fileDict ↔
      ∃ file ∈ sortedFiles files.languages, entry file = some data := by
    intro data
    rw [isDict, List.reduceOption_mem_iff, List.mem_map]
  have distinct : (fileDict.map (·.filename)).Nodup := by
    have within : ∀ sorted : List PatchInfo, ((sorted.map entry).reduceOption.map
        (·.filename)).Sublist (sorted.map (·.filename)) := by
      intro sorted
      induction sorted with
      | nil => exact List.Sublist.refl _
      | cons file rest ih =>
          cases found : entry file with
          | none => simpa [found] using ih.cons file.filename
          | some data => simpa [found, named file data found] using ih
    rw [isDict]
    exact names.sublist (within _)
  have run : (sortedFiles files.languages).mapM env.fileEntry =
      some ((sortedFiles files.languages).map entry) := by
    rw [funext same]
    exact List.mapM_pure
  let first := env.generateFullPatch fileDict ((sortedFiles files.languages).map (·.filename))
  let rounds := if largePrHandling then (env.maxAiCalls - 2).toNat else 0
  let later := env.iterate fileDict rounds first.remaining
  have places : ∀ data ∈ fileDict, Places env fileDict data (rounds + 1)
      ((sortedFiles files.languages).map (·.filename)) (first :: later.1) later.2 :=
    fun data member => Places.call distinct member (places_iterate distinct member rounds _)
  have absent : ∀ name, name ∉ fileDict.map (·.filename) →
      placed name (first :: later.1) later.2 = 0 := by
    intro name out
    obtain ⟨noFiles, noRemaining⟩ : first.filesInPatch.count name = 0 ∧
        first.remaining.count name = 0 := count_foldl_pack env _ out _
    have behind := placed_iterate_absent env out rounds noRemaining
    rw [placed, List.flatMap_cons, List.count_append, noFiles, Nat.zero_add]
    exact behind
  have once : ∀ name, ((sortedFiles files.languages).map (·.filename)).count name ≤ 1 :=
    List.nodup_iff_count_le_one.mp names
  let deleted := ((sortedFiles files.languages).filter fun file =>
    file.patch ≠ "" ∧ handlePatchDeletions env.digits file = none).map (·.filename)
  have deletedCount : ∀ file ∈ sortedFiles files.languages, file.patch ≠ "" →
      deleted.count file.filename = if entry file = none then 1 else 0 := by
    intro file inside filled
    split
    · next none =>
        refine List.count_eq_one_of_mem (names.sublist (List.filter_sublist.map _)) ?_
        exact List.mem_map_of_mem (List.mem_filter.mpr
          ⟨inside, decide_eq_true ⟨filled, ((blank file).mp none).resolve_left filled⟩⟩)
    · next held =>
        refine List.count_eq_zero.mpr fun member => ?_
        obtain ⟨other, kept, equal⟩ := List.mem_map.mp member
        obtain ⟨otherInside, missing⟩ := List.mem_filter.mp kept
        rw [apart other otherInside file inside equal] at missing
        exact held ((blank file).mpr (Or.inr (of_decide_eq_true missing).2))
  rw [prGenerateCompressedDiff, run, Option.map_some, ← isDict]
  refine ⟨_, rfl, ?_, ?_⟩
  · rw [List.nodup_iff_count_le_one]
    intro name
    by_cases known : name ∈ fileDict.map (·.filename)
    · obtain ⟨data, member, rfl⟩ := List.mem_map.mp known
      by_cases empty : data.patch = []
      · exact ((places data member).1 empty).trans_le (Nat.zero_le 1)
      · obtain ⟨lost, kept⟩ := (places data member).2 empty (once _)
        have bound : placed data.filename (first :: later.1) later.2 ≤ 1 := by
          by_cases meets : env.MeetsStop fileDict data.filename (rounds + 1)
              ((sortedFiles files.languages).map (·.filename))
          · rw [lost meets]
            exact Nat.zero_le 1
          · rw [kept meets]
            exact once _
        exact (Nat.le_add_right _ _).trans bound
    · exact ((Nat.le_add_right _ _).trans_eq (absent name known)).trans (Nat.zero_le 1)
  · constructor
    · intro keeps data member text meets
      obtain ⟨file, inside, found⟩ := (inDict data).mp member
      have filled : file.patch ≠ "" := fun none => by
        rw [(blank file).mpr (Or.inl none)] at found
        cases found
      have held := keeps file (perm.mem_iff.mp inside) filled fun other read => by
        rw [same, found] at read
        cases read
        exact text
      have lost := ((places data member).2 text (once _)).1 meets
      have out := deletedCount file inside filled
      rw [found, if_neg (Option.some_ne_none data)] at out
      rw [named file data found, placed] at lost
      rw [out, Nat.zero_add, lost] at held
      cases held
    · intro free file member filled text
      have inside := perm.mem_iff.mpr member
      refine (congrArg (· + _ + _) (deletedCount file inside filled)).trans ?_
      rw [Nat.add_assoc]
      cases found : entry file with
      | none =>
          have out : file.filename ∉ fileDict.map (·.filename) := by
            intro known
            obtain ⟨data, isData, equal⟩ := List.mem_map.mp known
            obtain ⟨other, otherInside, read⟩ := (inDict data).mp isData
            rw [named other data read] at equal
            rw [apart other otherInside file inside equal, found] at read
            cases read
          exact congrArg (1 + ·) (absent _ out)
      | some data =>
          have isData := (inDict data).mpr ⟨file, inside, found⟩
          have shown := text data (by rw [same, found])
          have held := ((places data isData).2 shown (once _)).2 (free data isData shown)
          rw [named file data found, List.count_eq_one_of_mem names
            (List.mem_map_of_mem inside)] at held
          exact (Nat.zero_add _).trans held

end CompressEnv

namespace CompressSample

/-- The prompt takes nearly all tokens of the model. -/
def env : CompressEnv where
  digits := asciiDigits
  countTokens := List.length
  promptTokens := 1500
  maxTokens := 2000
  maxAiCalls := 5
  convert := false
  checksImports := fun _ => false
  foreignImport := fun _ _ => false

/-- One line of one file is changed. -/
def files : ChangedFiles where
  languages := [[PackSample.file "a.py"]]
  distinct := by decide

/-- The only file is in no list. -/
def Lost (largePrHandling : Bool) : Prop :=
  ∃ result, env.prGenerateCompressedDiff files largePrHandling = some result ∧
    result.groups.map (·.filesInPatch) = [[]] ∧ result.deletedFiles = [] ∧
    result.remainingFiles = [] ∧ ¬ env.KeepsFiles files result

theorem lost (largePrHandling : Bool) : Lost largePrHandling := by
  have evaluated : ((env.prGenerateCompressedDiff files largePrHandling).any fun result =>
      decide (result.groups.map (·.filesInPatch) = [[]] ∧ result.deletedFiles = [] ∧
        result.remainingFiles = [])) = true := by
    cases largePrHandling <;> decide +kernel
  have written : ((env.fileEntry (PackSample.file "a.py")).any fun entry =>
      entry.all fun data => data.patch ≠ []) = true := by
    decide +kernel
  obtain ⟨result, returned, lists⟩ := (Option.any_eq_true _ _).mp evaluated
  obtain ⟨groups, deleted, remaining⟩ := of_decide_eq_true lists
  refine ⟨result, returned, groups, deleted, remaining, fun keeps => ?_⟩
  have held := keeps (PackSample.file "a.py") List.mem_cons_self (by decide) fun data read => by
    rw [read] at written
    exact of_decide_eq_true written
  rw [deleted, remaining, List.flatMap_def, groups] at held
  cases held

end CompressSample

open CompressSample in
/-- The file is lost with and without the handling of large requests. -/
theorem file_is_lost : Lost true ∧ Lost false :=
  ⟨lost true, lost false⟩

end MrAgent
