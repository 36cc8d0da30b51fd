import MrAgent.HeavyRepair

namespace MrAgent.HeavyRepair

open FallibleProgram

/-!
# Accounts of a repair session

The results are made from the manifest, entry by entry. They account for every
task and every hunk exactly when the manifest fits the batch and the diff.
-/

/-- A task that the results speak about. -/
def Classified.Reports (classified : Classified) (taskId : String) : Prop :=
  (∃ item ∈ classified.oneClick ++ classified.copyPatch, item.sourceTaskId = taskId) ∨
    ∃ reason, (taskId, reason) ∈ classified.failed

/-- Where a suggestion stands. -/
def RepairItem.place (item : RepairItem) : String × RepairHunk :=
  (item.relevantFile, item.hunk)

/-- How often a hunk is among the suggestions. -/
def Classified.times (classified : Classified) (place : String × RepairHunk) : Nat :=
  (classified.oneClick.map (·.place)).count place + (classified.copyPatch.map (·.place)).count place

/-- The hunks of the clone; a session that has not ended well leaves none. -/
def HeavyEnv.sessionHunks (env : HeavyEnv) : SessionOutcome → List (String × List RepairHunk)
  | .finished session => ((env.parseUnifiedDiff session.diffText).toOption).getD []
  | _ => []

/-- Every task is reported, and no hunk is emitted more often than the diff has it. -/
structure Accounted
    (tasks : List RepairTask)
    (fileHunks : List (String × List RepairHunk))
    (classified : Classified) : Prop where
  every : ∀ taskId ∈ taskIds tasks, classified.Reports taskId
  once : ∀ name hunk, classified.times (name, hunk) ≤ (hunksOf fileHunks name).count hunk

/-! ## What can be read -/

namespace HeavyEnv

variable (env : HeavyEnv)

/-- The digits of a number and of its optional size are few enough for `int`. -/
def NumbersReadable (start : List Char) (size : Option (List Char)) : Prop :=
  start.length ≤ 4300 ∧ ∀ digits, size = some digits → digits.length ≤ 4300

/-- The numbers of every header in the diff are few enough. -/
def DiffReadable (diffText : String) : Prop :=
  ∀ line ∈ splitLines diffText, ∀ found, env.digits.matchHeader line = some found →
    NumbersReadable found.start1 found.size1

/-- The lines that a hunk of the merge request shows on its new side. -/
def newRange (found : HeaderMatch) : Nat × Nat :=
  let newStart := env.digits.number found.start2
  let newCount := (found.size2.map env.digits.number).getD 1
  (newStart, if 0 < newCount then newStart + max newCount 1 - 1 else newStart)

/-- The numbers are few enough up to the first hunk that overlaps some lines. -/
def RangeReadable (lineStart lineEnd : Nat) : List (List Char) → Prop
  | [] => True
  | line :: rest =>
    match env.digits.matchHeader line with
    | none => RangeReadable lineStart lineEnd rest
    | some found =>
      NumbersReadable found.start2 found.size2 ∧
        (¬ (lineStart ≤ (env.newRange found).2 ∧ (env.newRange found).1 ≤ lineEnd) →
          RangeReadable lineStart lineEnd rest)

variable (inputs : RepairInputs)

/-- The merge request's patch of the file can be searched for the lines of a hunk. -/
def HunkReadable (filePath : String) (hunk : RepairHunk) : Prop :=
  let patch := (inputs.diffFilePatches.lookup filePath).getD ""
  patch ≠ "" → env.RangeReadable hunk.oldStart hunk.oldEnd (splitLines patch)

/-- A file that an entry names can be looked up. -/
def FileReadable (file : JsonValue) : Prop :=
  file.hashable = true ∧ ∀ name, file = .str name →
    ∀ hunk ∈ hunksOf inputs.fileHunks name, env.HunkReadable inputs name hunk

/-- An entry is an object, and the files that it names as done can be looked up. -/
def EntryReadable (taskId : String) (value : JsonValue) : Prop :=
  ∃ entry, value = .obj entry ∧
    (env.statusOf entry = "done" →
      ∃ files, (filesOf (inputs.taskById.lookup taskId) entry).iterated = some files ∧
        ∀ file ∈ files, env.FileReadable inputs file)

/-- The names of the files that an entry names as done. -/
def doneNames (taskId : String) : JsonValue → List String
  | .obj entry =>
    if env.statusOf entry = "done" then
      (((filesOf (inputs.taskById.lookup taskId) entry).iterated).getD []).filterMap fun file =>
        match file with
        | .str name => some name
        | _ => none
    else []
  | _ => []

/-- The manifest fits the batch and the hunks of the diff. -/
structure ManifestFits (tasks : List RepairTask) (manifest : List (String × JsonValue)) : Prop where
  readable : ∀ entry ∈ manifest, env.EntryReadable inputs entry.1 entry.2
  named : ∀ taskId ∈ taskIds tasks, taskId ∈ manifest.map (·.1)
  apart : ∀ name, hunksOf inputs.fileHunks name ≠ [] →
    (manifest.flatMap fun entry => env.doneNames inputs entry.1 entry.2).count name ≤ 1

end HeavyEnv

/-! ## Numbers -/

namespace HeavyEnv

variable {env : HeavyEnv} {inputs : RepairInputs}

theorem readInt_eq_ok
    {digits : List Char}
    {value : Nat} :
    env.readInt digits = .ok value ↔ digits.length ≤ 4300 ∧ env.digits.number digits = value := by
  rw [readInt]
  split
  · rename_i long
    simp [Nat.not_le.mpr long]
  · rename_i few
    simp [Nat.not_lt.mp few]

theorem readSize_eq_ok
    {size : Option (List Char)}
    {value : Nat} :
    env.readSize size = .ok value ↔
      (∀ digits, size = some digits → digits.length ≤ 4300) ∧
        (size.map env.digits.number).getD 1 = value := by
  cases size with
  | none => simp [readSize]
  | some digits => simp [readSize, readInt_eq_ok]

theorem matchHeader_of_matchDiffGit
    {line name : List Char}
    (matched : matchDiffGit line = some name) :
    env.digits.matchHeader line = none := by
  cases header : env.digits.matchHeader line with
  | none => rfl
  | some found =>
      have marked := startsHeader_of_matchHeader (Option.isSome_of_eq_some header)
      rw [startsHeader, decide_eq_true_eq] at marked
      obtain ⟨rest, rfl⟩ := marked
      have other : ¬ "diff --git a/".toList <+: ['@', '@'] ++ rest := by
        simp
      rw [matchDiffGit, afterStart, if_neg other] at matched
      cases matched

theorem readLine_ok_iff
    {reading : DiffReading}
    {line : List Char} :
    (∃ next, env.readLine reading line = .ok next) ↔
      ∀ found, env.digits.matchHeader line = some found →
        NumbersReadable found.start1 found.size1 := by
  rw [readLine]
  cases git : matchDiffGit line with
  | some name => simp [matchHeader_of_matchDiffGit git]
  | none =>
      cases header : env.digits.matchHeader line with
      | none => simp
      | some found =>
          simp only [bind_eq_ok, readInt_eq_ok, readSize_eq_ok, pure, Except.pure,
            Except.ok.injEq, Option.some.injEq, forall_eq', NumbersReadable]
          constructor
          · rintro ⟨next, oldStart, ⟨few, _⟩, oldCount, ⟨sizeFew, _⟩, _⟩
            exact ⟨few, sizeFew⟩
          · rintro ⟨few, sizeFew⟩
            exact ⟨_, _, ⟨few, rfl⟩, _, ⟨sizeFew, rfl⟩, rfl⟩

theorem foldlM_readLine_ok_iff
    {reading : DiffReading}
    {lines : List (List Char)} :
    (∃ final, lines.foldlM env.readLine reading = .ok final) ↔
      ∀ line ∈ lines, ∀ found, env.digits.matchHeader line = some found →
        NumbersReadable found.start1 found.size1 := by
  induction lines generalizing reading with
  | nil => simp [pure, Except.pure]
  | cons line rest ih =>
      rw [List.forall_mem_cons, ← @readLine_ok_iff env reading line]
      simp only [List.foldlM_cons, bind_eq_ok]
      constructor
      · rintro ⟨final, next, read, finished⟩
        exact ⟨⟨next, read⟩, ih.mp ⟨final, finished⟩⟩
      · rintro ⟨⟨next, read⟩, others⟩
        obtain ⟨final, finished⟩ := (@ih next).mpr others
        exact ⟨final, next, read, finished⟩

theorem parseUnifiedDiff_ok_iff
    {diffText : String} :
    (∃ fileHunks, env.parseUnifiedDiff diffText = .ok fileHunks) ↔ env.DiffReadable diffText := by
  rw [DiffReadable, ← @foldlM_readLine_ok_iff env {} (splitLines diffText)]
  simp only [parseUnifiedDiff, bind_eq_ok, pure, Except.pure, Except.ok.injEq]
  constructor
  · rintro ⟨fileHunks, reading, finished, _⟩
    exact ⟨reading, finished⟩
  · rintro ⟨reading, finished⟩
    exact ⟨_, reading, finished, rfl⟩

theorem rangeInHunks_header
    {lineStart lineEnd : Nat}
    {line : List Char}
    {rest : List (List Char)}
    {found : HeaderMatch}
    (header : env.digits.matchHeader line = some found)
    (readable : NumbersReadable found.start2 found.size2) :
    env.rangeInHunks lineStart lineEnd (line :: rest) =
      if lineStart ≤ (env.newRange found).2 ∧ (env.newRange found).1 ≤ lineEnd then .ok true
      else env.rangeInHunks lineStart lineEnd rest := by
  have start := (@readInt_eq_ok env _ _).mpr ⟨readable.1, rfl⟩
  have size := (@readSize_eq_ok env _ _).mpr ⟨readable.2, rfl⟩
  simp only [rangeInHunks, header, start, size, bind, Except.bind, newRange]
  refine if_congr ?_ rfl rfl
  rw [Bool.and_eq_true, decide_eq_true_eq, decide_eq_true_eq]

theorem rangeInHunks_ok_iff
    {lineStart lineEnd : Nat}
    {lines : List (List Char)} :
    (∃ overlaps, env.rangeInHunks lineStart lineEnd lines = .ok overlaps) ↔
      env.RangeReadable lineStart lineEnd lines := by
  induction lines with
  | nil => simp [rangeInHunks, RangeReadable]
  | cons line rest ih =>
      rw [RangeReadable]
      cases header : env.digits.matchHeader line with
      | none =>
          simp only [rangeInHunks, header]
          exact ih
      | some found =>
          by_cases readable : NumbersReadable found.start2 found.size2
          · simp only [rangeInHunks_header header readable, readable, true_and]
            split
            · rename_i overlaps
              simp [overlaps]
            · rename_i apart
              rw [ih]
              exact ⟨fun later _ => later, fun later => later apart⟩
          · simp only [readable, false_and, iff_false, not_exists]
            intro overlaps searched
            simp only [rangeInHunks, header, bind_eq_ok, readInt_eq_ok, readSize_eq_ok] at searched
            obtain ⟨_, ⟨few, _⟩, _, ⟨sizeFew, _⟩, _⟩ := searched
            exact readable ⟨few, sizeFew⟩

end HeavyEnv

/-! ## Collected results -/

theorem times_append
    (first second : Classified)
    (place : String × RepairHunk) :
    (first.append second).times place = first.times place + second.times place := by
  simp only [Classified.times, Classified.append, List.map_append, List.count_append]
  omega

theorem reports_append
    {first second : Classified}
    {taskId : String} :
    (first.append second).Reports taskId ↔ first.Reports taskId ∨ second.Reports taskId := by
  simp only [Classified.Reports, Classified.append, List.mem_append, or_and_right, exists_or]
  grind

section Collect

variable {α : Type} {classify : α → Except String Classified} {items : List α}
  {classified : Classified}

theorem collect_ok_iff :
    (∃ classified, collect classify items = .ok classified) ↔
      ∀ item ∈ items, ∃ here, classify item = .ok here := by
  induction items with
  | nil => simp [collect]
  | cons first rest ih =>
      rw [List.forall_mem_cons, ← ih]
      simp only [collect, bind_eq_ok]
      constructor
      · rintro ⟨_, here, read, others, collected, _⟩
        exact ⟨⟨here, read⟩, others, collected⟩
      · rintro ⟨⟨here, read⟩, others, collected⟩
        exact ⟨_, here, read, others, collected, rfl⟩

theorem collect_times
    {places : α → List (String × RepairHunk)}
    (lists : ∀ item ∈ items, ∀ here, classify item = .ok here →
      ∀ place, here.times place = (places item).count place)
    (collected : collect classify items = .ok classified)
    (place : String × RepairHunk) :
    classified.times place = (items.flatMap places).count place := by
  induction items generalizing classified with
  | nil =>
      cases collected
      rfl
  | cons first rest ih =>
      simp only [collect, bind_eq_ok] at collected
      obtain ⟨here, read, others, later, made⟩ := collected
      cases made
      rw [List.forall_mem_cons] at lists
      rw [times_append, lists.1 here read, ih lists.2 later, List.flatMap_cons,
        List.count_append]

variable {taskId : String}

theorem collect_reports
    (collected : collect classify items = .ok classified) :
    classified.Reports taskId ↔
      ∃ item ∈ items, ∃ here, classify item = .ok here ∧ here.Reports taskId := by
  induction items generalizing classified with
  | nil =>
      cases collected
      simp [Classified.Reports]
  | cons first rest ih =>
      simp only [collect, bind_eq_ok] at collected
      obtain ⟨here, read, others, later, made⟩ := collected
      cases made
      rw [reports_append, ih later]
      simp only [List.mem_cons, exists_eq_or_imp, read, Except.ok.injEq, exists_eq_left']

/-- The suggestions are all for one task, and nothing has failed. -/
def Sourced (classified : Classified) (taskId : String) : Prop :=
  (∀ item ∈ classified.oneClick ++ classified.copyPatch, item.sourceTaskId = taskId) ∧
    classified.failed = []

theorem Sourced.append
    {first second : Classified}
    (one : Sourced first taskId)
    (other : Sourced second taskId) :
    Sourced (first.append second) taskId := by
  refine ⟨fun item member => ?_, ?_⟩
  · have parts : item ∈ first.oneClick ++ first.copyPatch ∨
        item ∈ second.oneClick ++ second.copyPatch := by
      simp only [Classified.append, List.mem_append] at member ⊢
      tauto
    exact parts.elim (one.1 item) (other.1 item)
  · rw [Classified.append, one.2, other.2, List.append_nil]

theorem collect_sourced
    (sourced : ∀ item ∈ items, ∀ here, classify item = .ok here → Sourced here taskId)
    (collected : collect classify items = .ok classified) :
    Sourced classified taskId := by
  induction items generalizing classified with
  | nil =>
      cases collected
      exact ⟨fun item member => absurd member List.not_mem_nil, rfl⟩
  | cons first rest ih =>
      simp only [collect, bind_eq_ok] at collected
      obtain ⟨here, read, others, later, made⟩ := collected
      cases made
      rw [List.forall_mem_cons] at sourced
      exact (sourced.1 here read).append (ih sourced.2 later)

end Collect

/-! ## The results of an entry -/

namespace HeavyEnv

variable {env : HeavyEnv} {inputs : RepairInputs} {task : Option RepairTask}
  {taskId note filePath : String}

theorem classifyHunk_ok_iff
    {hunk : RepairHunk} :
    (∃ here, env.classifyHunk inputs task taskId note filePath hunk = .ok here) ↔
      env.HunkReadable inputs filePath hunk := by
  have searched : (∃ here, env.classifyHunk inputs task taskId note filePath hunk = .ok here) ↔
      ∃ inDiff, env.inDiff inputs filePath hunk = .ok inDiff := by
    simp only [classifyHunk, bind_eq_ok, pure, Except.pure, Except.ok.injEq]
    exact ⟨fun ⟨_, inDiff, found, _⟩ => ⟨inDiff, found⟩,
      fun ⟨inDiff, found⟩ => ⟨_, inDiff, found, rfl⟩⟩
  rw [searched]
  simp only [inDiff, HunkReadable]
  split
  · rename_i empty
    simp [empty]
  · rename_i some_patch
    rw [lineRangeInDiffHunks, rangeInHunks_ok_iff]
    exact ⟨fun readable _ => readable, fun readable => readable some_patch⟩

variable {here : Classified}

theorem classifyHunk_eq_ok
    {hunk : RepairHunk}
    (made : env.classifyHunk inputs task taskId note filePath hunk = .ok here) :
    (∀ place, here.times place = [(filePath, hunk)].count place) ∧ Sourced here taskId := by
  simp only [classifyHunk, bind_eq_ok, pure, Except.pure, Except.ok.injEq] at made
  obtain ⟨inDiff, _, rfl⟩ := made
  cases inDiff <;>
    simp [Classified.times, repairItem, RepairItem.place, Sourced]

/-- The hunks of a file that an entry names. -/
def placesOf (inputs : RepairInputs) (name : String) : List (String × RepairHunk) :=
  (hunksOf inputs.fileHunks name).map fun hunk => (name, hunk)

/-- The name that a value stands for. -/
def nameOf : JsonValue → Option String
  | .str name => some name
  | _ => none

theorem classifyFile_ok_iff
    {file : JsonValue} :
    (∃ here, env.classifyFile inputs task taskId note file = .ok here) ↔
      env.FileReadable inputs file := by
  cases file with
  | str name =>
      rw [classifyFile, collect_ok_iff]
      simp [classifyHunk_ok_iff, FileReadable, JsonValue.hashable]
  | _ => simp [classifyFile, FileReadable, JsonValue.hashable, raiseIf, bind, Except.bind, pure,
      Except.pure]

theorem classifyFile_eq_ok
    {file : JsonValue}
    (made : env.classifyFile inputs task taskId note file = .ok here) :
    (∀ place, here.times place =
        ((nameOf file).toList.flatMap (placesOf inputs)).count place) ∧ Sourced here taskId := by
  have nothing : here = {} → nameOf file = none →
      (∀ place, here.times place =
        ((nameOf file).toList.flatMap (placesOf inputs)).count place) ∧ Sourced here taskId := by
    rintro rfl unnamed
    rw [unnamed]
    exact ⟨fun _ => rfl, fun item member => absurd member List.not_mem_nil, rfl⟩
  cases file with
  | str name =>
      rw [classifyFile] at made
      have times := collect_times (fun hunk _ part read => (classifyHunk_eq_ok read).1) made
      refine ⟨fun place => ?_,
        collect_sourced (fun hunk _ part read => (classifyHunk_eq_ok read).2) made⟩
      rw [times, nameOf, Option.toList_some, List.flatMap_singleton, placesOf,
        List.map_eq_flatMap]
  | arr items => cases made
  | obj entries => cases made
  | _ =>
      cases made
      exact nothing rfl rfl

theorem doneNames_eq
    {entry : List (String × JsonValue)}
    (done : env.statusOf entry = "done")
    {files : List JsonValue}
    (iterates : (filesOf (inputs.taskById.lookup taskId) entry).iterated = some files) :
    env.doneNames inputs taskId (.obj entry) = files.filterMap nameOf := by
  rw [doneNames, if_pos done, iterates]
  rfl

theorem classifyEntry_ok_iff
    {value : JsonValue} :
    (∃ here, env.classifyEntry inputs taskId value = .ok here) ↔
      env.EntryReadable inputs taskId value := by
  cases value with
  | obj entry =>
      simp only [classifyEntry, EntryReadable, JsonValue.obj.injEq, exists_eq_left']
      by_cases done : env.statusOf entry = "done"
      · simp only [done, ne_eq, not_true_eq_false, ↓reduceIte, forall_const]
        cases iterates : (filesOf (inputs.taskById.lookup taskId) entry).iterated with
        | none => simp
        | some files =>
            simp only [Option.some.injEq, exists_eq_left', bind_eq_ok]
            have collected := @collect_ok_iff _
              (env.classifyFile inputs (inputs.taskById.lookup taskId) taskId (env.noteOf entry)) files
            simp only [classifyFile_ok_iff] at collected
            rw [← collected]
            constructor
            · rintro ⟨_, produced, read, _⟩
              exact ⟨produced, read⟩
            · rintro ⟨produced, read⟩
              by_cases empty : (produced.oneClick.isEmpty && produced.copyPatch.isEmpty) = true
              · exact ⟨_, produced, read, by rw [if_pos empty]; rfl⟩
              · exact ⟨_, produced, read, by rw [if_neg empty]; rfl⟩
      · simp [done]
  | _ => simp [classifyEntry, EntryReadable]

theorem classifyEntry_eq_ok
    {value : JsonValue}
    (made : env.classifyEntry inputs taskId value = .ok here) :
    (∀ place, here.times place =
        ((env.doneNames inputs taskId value).flatMap (placesOf inputs)).count place) ∧
      ∀ other, here.Reports other ↔ other = taskId := by
  have onlyFailed : ∀ reason, ∀ other,
      Classified.Reports { failed := [(taskId, reason)] } other ↔ other = taskId := by
    intro reason other
    simp [Classified.Reports]
  cases value with
  | obj entry =>
      simp only [classifyEntry] at made
      by_cases done : env.statusOf entry = "done"
      · simp only [done, ne_eq, not_true_eq_false, ↓reduceIte] at made
        cases iterates : (filesOf (inputs.taskById.lookup taskId) entry).iterated with
        | none => simp [iterates] at made
        | some files =>
            simp only [iterates, bind_eq_ok] at made
            obtain ⟨produced, read, made⟩ := made
            have times := collect_times (fun file _ part read => (classifyFile_eq_ok read).1) read
            have sourced := collect_sourced
              (fun file _ part read => (classifyFile_eq_ok read).2) read
            rw [doneNames_eq done iterates]
            have names : files.flatMap (fun file => (nameOf file).toList.flatMap (placesOf inputs)) =
                (files.filterMap nameOf).flatMap (placesOf inputs) := by
              rw [List.filterMap_eq_flatMap_toList, List.flatMap_assoc]
            simp only [names] at times
            split at made
            · rename_i empty
              cases made
              rw [Bool.and_eq_true, List.isEmpty_iff, List.isEmpty_iff] at empty
              refine ⟨fun place => ?_, onlyFailed _⟩
              rw [← times]
              simp only [Classified.times, empty.1, empty.2]
            · rename_i some_items
              cases made
              refine ⟨times, fun other => ?_⟩
              rw [Bool.and_eq_true, List.isEmpty_iff, List.isEmpty_iff, ← List.append_eq_nil_iff]
                at some_items
              obtain ⟨item, rest, shape⟩ := List.exists_cons_of_ne_nil some_items
              have itemMember : item ∈ here.oneClick ++ here.copyPatch := by
                rw [shape]
                exact List.mem_cons_self
              constructor
              · rintro (⟨one, member, rfl⟩ | ⟨reason, member⟩)
                · exact sourced.1 one member
                · rw [sourced.2] at member
                  cases member
              · rintro rfl
                exact Or.inl ⟨item, itemMember, sourced.1 item itemMember⟩
      · simp only [done, ne_eq, not_false_eq_true, ↓reduceIte, Except.ok.injEq] at made
        subst made
        refine ⟨fun place => ?_, onlyFailed _⟩
        rw [doneNames, if_neg done]
        rfl
  | _ => cases made

end HeavyEnv

/-! ## The accounts -/

theorem count_placesOf
    (inputs : RepairInputs)
    (names : List String)
    (name : String)
    (hunk : RepairHunk) :
    (names.flatMap (HeavyEnv.placesOf inputs)).count (name, hunk) =
      names.count name * (hunksOf inputs.fileHunks name).count hunk := by
  induction names with
  | nil => simp
  | cons first rest ih =>
      rw [List.flatMap_cons, List.count_append, ih, List.count_cons, Nat.add_mul,
        Nat.add_comm, HeavyEnv.placesOf]
      by_cases same : first = name
      · subst same
        have pairs : ((hunksOf inputs.fileHunks first).map fun hunk => (first, hunk)).count
            (first, hunk) = (hunksOf inputs.fileHunks first).count hunk :=
          List.count_map_of_injective _ _ (fun _ _ pairs => (Prod.mk.inj pairs).2) _
        simp [pairs]
      · have none : ((hunksOf inputs.fileHunks first).map fun hunk => (first, hunk)).count
            (name, hunk) = 0 := by
          refine List.count_eq_zero.mpr fun member => ?_
          obtain ⟨other, _, pairs⟩ := List.mem_map.mp member
          exact same (Prod.mk.inj pairs).1
        simp [none, same]

theorem placed_once_iff
    (inputs : RepairInputs)
    (names : List String) :
    (∀ name hunk, (names.flatMap (HeavyEnv.placesOf inputs)).count (name, hunk) ≤
        (hunksOf inputs.fileHunks name).count hunk) ↔
      ∀ name, hunksOf inputs.fileHunks name ≠ [] → names.count name ≤ 1 := by
  simp only [count_placesOf]
  constructor
  · intro once name some_hunks
    obtain ⟨hunk, rest, shape⟩ := List.exists_cons_of_ne_nil some_hunks
    have stored : 0 < (hunksOf inputs.fileHunks name).count hunk := by
      rw [shape, List.count_cons_self]
      exact Nat.succ_pos _
    have bound := once name hunk
    exact Nat.le_of_mul_le_mul_right (by rwa [Nat.one_mul]) stored
  · intro apart name hunk
    by_cases empty : hunksOf inputs.fileHunks name = []
    · rw [empty]
      simp
    · calc names.count name * (hunksOf inputs.fileHunks name).count hunk
          ≤ 1 * (hunksOf inputs.fileHunks name).count hunk :=
            Nat.mul_le_mul_right _ (apart name empty)
        _ = (hunksOf inputs.fileHunks name).count hunk := Nat.one_mul _

theorem accounted_iff
    {env : HeavyEnv}
    {inputs : RepairInputs}
    {manifest : List (String × JsonValue)}
    {classified : Classified}
    (made : env.classifyHeavyRepairResults inputs manifest = .ok classified)
    (tasks : List RepairTask) :
    Accounted tasks inputs.fileHunks classified ↔
      (∀ taskId ∈ taskIds tasks, taskId ∈ manifest.map (·.1)) ∧
        ∀ name, hunksOf inputs.fileHunks name ≠ [] →
          (manifest.flatMap fun entry => env.doneNames inputs entry.1 entry.2).count name ≤ 1 := by
  have read : ∀ entry ∈ manifest,
      ∃ here, env.classifyEntry inputs entry.1 entry.2 = .ok here :=
    collect_ok_iff.mp ⟨classified, made⟩
  have reports : ∀ taskId, classified.Reports taskId ↔ taskId ∈ manifest.map (·.1) := by
    intro taskId
    rw [collect_reports made, List.mem_map]
    constructor
    · rintro ⟨entry, member, here, part, reported⟩
      exact ⟨entry, member, (((HeavyEnv.classifyEntry_eq_ok part).2 taskId).mp reported).symm⟩
    · rintro ⟨entry, member, same⟩
      obtain ⟨here, part⟩ := read entry member
      exact ⟨entry, member, here, part, ((HeavyEnv.classifyEntry_eq_ok part).2 taskId).mpr same.symm⟩
  have times : ∀ place, classified.times place =
      ((manifest.flatMap fun entry => env.doneNames inputs entry.1 entry.2).flatMap
        (HeavyEnv.placesOf inputs)).count place := by
    intro place
    rw [collect_times (fun entry _ here part => (HeavyEnv.classifyEntry_eq_ok part).1) made,
      List.flatMap_assoc]
  rw [← placed_once_iff]
  constructor
  · rintro ⟨every, once⟩
    refine ⟨fun taskId member => (reports taskId).mp (every taskId member), fun name hunk => ?_⟩
    rw [← times]
    exact once name hunk
  · rintro ⟨named, apart⟩
    refine ⟨fun taskId member => (reports taskId).mpr (named taskId member), fun name hunk => ?_⟩
    rw [times]
    exact apart name hunk

theorem classified_accounted_iff
    (env : HeavyEnv)
    (inputs : RepairInputs)
    (tasks : List RepairTask)
    (manifest : List (String × JsonValue)) :
    (∃ classified, env.classifyHeavyRepairResults inputs manifest = .ok classified ∧
        Accounted tasks inputs.fileHunks classified) ↔
      env.ManifestFits inputs tasks manifest := by
  have read : (∃ classified, env.classifyHeavyRepairResults inputs manifest = .ok classified) ↔
      ∀ entry ∈ manifest, env.EntryReadable inputs entry.1 entry.2 := by
    rw [HeavyEnv.classifyHeavyRepairResults, collect_ok_iff]
    simp only [HeavyEnv.classifyEntry_ok_iff]
  constructor
  · rintro ⟨classified, made, accounted⟩
    obtain ⟨named, apart⟩ := (accounted_iff made tasks).mp accounted
    exact ⟨read.mp ⟨classified, made⟩, named, apart⟩
  · rintro ⟨readable, named, apart⟩
    obtain ⟨classified, made⟩ := read.mpr readable
    exact ⟨classified, made, (accounted_iff made tasks).mpr ⟨named, apart⟩⟩

theorem accounted_timed_iff
    {tasks : List RepairTask}
    {fileHunks : List (String × List RepairHunk)}
    {classified : Classified}
    {durationMs : Nat} :
    Accounted tasks fileHunks (classified.timed durationMs) ↔
      Accounted tasks fileHunks classified := by
  have times : ∀ place, (classified.timed durationMs).times place = classified.times place := by
    intro place
    simp only [Classified.times, Classified.timed, List.map_map]
    rfl
  have reports : ∀ taskId, (classified.timed durationMs).Reports taskId ↔
      classified.Reports taskId := by
    intro taskId
    simp [Classified.Reports, Classified.timed, or_and_right, exists_or]
  constructor
  · rintro ⟨every, once⟩
    exact ⟨fun taskId member => (reports taskId).mp (every taskId member),
      fun name hunk => times (name, hunk) ▸ once name hunk⟩
  · rintro ⟨every, once⟩
    exact ⟨fun taskId member => (reports taskId).mpr (every taskId member),
      fun name hunk => (times (name, hunk)).symm ▸ once name hunk⟩

theorem allFailed_accounted
    (tasks : List RepairTask)
    (reason : String) :
    Accounted tasks [] (allFailed tasks reason) where
  every _ member := Or.inr ⟨reason, List.mem_map_of_mem member⟩
  once _ _ := Nat.zero_le _

/-- What the manifest is read with. -/
def HeavyEnv.sessionInputs (env : HeavyEnv) (tasks : List RepairTask) (session : FinishedSession) :
    RepairInputs where
  fileHunks := env.sessionHunks (.finished session)
  diffFilePatches := session.diffFilePatches
  taskById := (taskIds tasks).zip tasks

/-- A session accounts for every task and hunk exactly when there is nothing to do, or it has not
ended well, or its numbers can be read and its manifest fits. -/
theorem heavy_repair_accounts_iff
    (env : HeavyEnv)
    (tasks : List RepairTask)
    (outcome : SessionOutcome) :
    (∃ classified, env.runHeavyRepair tasks outcome = .ok classified ∧
        Accounted tasks (env.sessionHunks outcome) classified) ↔
      ∀ session, tasks ≠ [] → outcome = .finished session →
        env.DiffReadable session.diffText ∧
          env.ManifestFits (env.sessionInputs tasks session) tasks
            (readManifest session.manifest) := by
  by_cases nothing : tasks = []
  · subst nothing
    have idle : Accounted [] (env.sessionHunks outcome) {} :=
      ⟨fun _ member => absurd member List.not_mem_nil, fun _ _ => Nat.zero_le _⟩
    simp [HeavyEnv.runHeavyRepair, idle]
  simp only [HeavyEnv.runHeavyRepair, nothing, ↓reduceIte, ne_eq, not_false_eq_true, forall_const]
  cases outcome with
  | finished session =>
      simp only [SessionOutcome.finished.injEq, forall_eq', bind_eq_ok]
      have read := @HeavyEnv.parseUnifiedDiff_ok_iff env session.diffText
      constructor
      · rintro ⟨_, ⟨fileHunks, parsed, classified, made, same⟩, accounted⟩
        cases same
        have hunks : env.sessionHunks (.finished session) = fileHunks := by
          rw [HeavyEnv.sessionHunks, parsed]
          rfl
        refine ⟨read.mp ⟨fileHunks, parsed⟩, (classified_accounted_iff ..).mp ⟨classified, ?_⟩⟩
        rw [HeavyEnv.sessionInputs, hunks]
        rw [accounted_timed_iff, hunks] at accounted
        exact ⟨made, accounted⟩
      · rintro ⟨readable, fits⟩
        obtain ⟨fileHunks, parsed⟩ := read.mpr readable
        have hunks : env.sessionHunks (.finished session) = fileHunks := by
          rw [HeavyEnv.sessionHunks, parsed]
          rfl
        obtain ⟨classified, made, accounted⟩ := (classified_accounted_iff ..).mpr fits
        rw [HeavyEnv.sessionInputs, hunks] at made accounted
        refine ⟨_, ⟨fileHunks, parsed, classified, made, rfl⟩, ?_⟩
        rw [accounted_timed_iff, hunks]
        exact accounted
  | _ =>
      simp only [reduceCtorEq, IsEmpty.forall_iff, implies_true, iff_true]
      exact ⟨_, rfl, allFailed_accounted tasks _⟩

namespace AccountsSample

/-- Texts and digits of ASCII; no value but texts is printed below. -/
def env : HeavyEnv where
  digits := ⟨fun _ => none⟩
  lower := fun text => String.ofList (text.toList.map Char.toLower)
  repr := fun _ => ""

def task : RepairTask where
  relevantFile := "src/app.py"
  members := []

/-- A session without edits. -/
def session (manifest : ManifestFile) : FinishedSession where
  diffText := ""
  manifest := manifest
  diffFiles := none
  durationMs := 0

end AccountsSample

open AccountsSample in
/-- A task is lost when the manifest is missing, and an entry that is a text stops the repair. -/
theorem missing_manifest_loses_the_task :
    (¬ ∃ classified, env.runHeavyRepair [task] (.finished (session .missing)) = .ok classified ∧
        Accounted [task] (env.sessionHunks (.finished (session .missing))) classified) ∧
      env.runHeavyRepair [task]
          (.finished (session (.loaded (.obj [("SUG-001", .str "done")])))) =
        .error "object has no attribute 'get'" := by
  refine ⟨?_, rfl⟩
  rintro ⟨classified, made, accounted⟩
  cases made
  have reported := accounted.every "SUG-001" (by decide)
  simp [Classified.Reports, Classified.timed] at reported

end MrAgent.HeavyRepair
