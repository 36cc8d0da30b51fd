import MrAgent.UnifiedPatch
import MrAgent.WrittenHunks

namespace MrAgent

/-!
# Every change with its line number

The hunks that are written are compared with the hunks of the patch. The loop
reads a hunk back exactly when all its lines stay whole and none of them looks
like the marker for a missing newline. The last hunk is written only when its
new side has a line.
-/

/-- The context and added lines with their numbers in the new file. -/
def newFileLines : Nat → List HunkLine → List (Int × List Char)
  | _, [] => []
  | number, entry :: rest =>
    match entry.kind with
    | .deletion => newFileLines number rest
    | _ => (number, entry.line) :: newFileLines (number + 1) rest

namespace UnifiedHunk

/-- The hunk with every line of its new side and, where it deletes, of its old side. -/
def numbered (hunk : UnifiedHunk) : NumberedHunk where
  header := hunk.header
  newLines := newFileLines hunk.start2 hunk.body
  oldLines := if hunk.body.any (·.kind = .deletion) then hunk.oldSide else []

/-- The header and the lines of the body, without the markers. -/
def ownLines (hunk : UnifiedHunk) : List (List Char) :=
  hunk.header :: hunk.body.map (·.line)

end UnifiedHunk

/-! ## Reading a hunk -/

theorem numberFrom_cons
    (start : Int)
    (line : List Char)
    (rest : List (List Char)) :
    numberFrom start (line :: rest) = (start, line) :: numberFrom (start + 1) rest := by
  rw [numberFrom, numberFrom, List.zipIdx_cons, List.zipIdx_succ, List.map_cons, List.map_map]
  congr 1
  · simp
  · refine List.map_congr_left fun entry _ => ?_
    simp only [Function.comp_apply, Prod.mk.injEq, and_true]
    omega

theorem newFileLines_eq
    (number : Nat)
    (body : List HunkLine) :
    newFileLines number body =
      numberFrom number ((body.filter (·.kind ≠ .deletion)).map (·.line)) := by
  induction body generalizing number with
  | nil =>
      rfl
  | cons entry rest ih =>
      cases kind : entry.kind with
      | deletion =>
          simp [newFileLines, kind, ih]
      | context =>
          simp [newFileLines, kind, ih, numberFrom_cons]
      | addition =>
          simp [newFileLines, kind, ih, numberFrom_cons]

theorem sign_eq
    (kind : DiffLineKind) :
    (kind.sign = '+' ↔ kind = .addition) ∧ (kind.sign = '-' ↔ kind = .deletion) := by
  cases kind <;> decide

theorem isNoNewlineLine_marker :
    isNoNewlineLine HunkLine.marker = true := by
  decide

theorem startsHeader_line
    (entry : HunkLine) :
    startsHeader entry.line = false := by
  rw [HunkLine.line]
  cases entry.kind <;> rfl

theorem startsHeader_header
    (hunk : UnifiedHunk) :
    startsHeader hunk.header = true := by
  rfl

namespace UnifiedHunk

theorem numberedHunk_sides
    (hunk : UnifiedHunk) :
    numberedHunk hunk.header hunk.start2 hunk.newSide hunk.oldSide = hunk.numbered := by
  have plus : (hunk.newSide.any fun line => line.head? = some '+') =
      hunk.body.any (·.kind = .addition) := by
    rw [newSide, List.any_map, List.any_filter]
    congr 1
    funext entry
    have signs := sign_eq entry.kind
    cases kind : entry.kind <;> simp [HunkLine.line, kind, DiffLineKind.sign]
  have minus : (hunk.oldSide.any fun line => line.head? = some '-') =
      hunk.body.any (·.kind = .deletion) := by
    rw [oldSide, List.any_map, List.any_filter]
    congr 1
    funext entry
    cases kind : entry.kind <;> simp [HunkLine.line, kind, DiffLineKind.sign]
  have changed : ((hunk.body.any (·.kind = .addition)) ||
      hunk.body.any (·.kind = .deletion)) = true := by
    obtain ⟨entry, member, kind⟩ := hunk.changes
    rw [Bool.or_eq_true, List.any_eq_true, List.any_eq_true]
    cases same : entry.kind with
    | context => exact absurd same kind
    | addition => exact Or.inl ⟨entry, member, by simp [same]⟩
    | deletion => exact Or.inr ⟨entry, member, by simp [same]⟩
  rw [numberedHunk, numbered]
  simp only [plus, minus, changed, if_true, newFileLines_eq]
  rfl

theorem sides_ne_nil
    (hunk : UnifiedHunk) :
    ¬ (hunk.newSide = [] ∧ hunk.oldSide = []) := by
  rintro ⟨newEmpty, oldEmpty⟩
  obtain ⟨entry, member, _⟩ := hunk.changes
  rw [newSide, List.map_eq_nil_iff, List.filter_eq_nil_iff] at newEmpty
  rw [oldSide, List.map_eq_nil_iff, List.filter_eq_nil_iff] at oldEmpty
  have deletion := newEmpty entry member
  have addition := oldEmpty entry member
  cases kind : entry.kind <;> simp [kind] at deletion addition

end UnifiedHunk

namespace HunkScan

variable (env : DigitEnv)

variable (scan : HunkScan)

theorem content_line
    (entry : HunkLine) :
    scan.content entry.line =
      { scan with
        newContent := scan.newContent ++ ([entry].filter (·.kind ≠ .deletion)).map (·.line)
        oldContent := scan.oldContent ++ ([entry].filter (·.kind ≠ .addition)).map (·.line) } := by
  rw [content]
  cases kind : entry.kind <;> simp [HunkLine.line, kind, DiffLineKind.sign]

theorem run_body
    {body : List HunkLine}
    (plain : ∀ entry ∈ body, isNoNewlineLine entry.line = false)
    (scan : HunkScan)
    (rest : List (List Char)) :
    run env scan false (body.flatMap HunkLine.lines ++ rest) =
      run env
        { scan with
          newContent := scan.newContent ++ (body.filter (·.kind ≠ .deletion)).map (·.line)
          oldContent := scan.oldContent ++ (body.filter (·.kind ≠ .addition)).map (·.line) }
        false rest := by
  induction body generalizing scan with
  | nil =>
      simp
  | cons entry more ih =>
      have first := plain entry List.mem_cons_self
      have further := ih
        (fun other member => plain other (List.mem_cons_of_mem _ member))
        (scan.content entry.line)
      have filled : ¬ entry.line = [] :=
        List.cons_ne_nil _ _
      have line : ∀ next, run env scan false (entry.line :: next) =
          run env (scan.content entry.line) false next := by
        intro next
        rw [run, first, startsHeader_line]
        simp [filled]
      have marked : run env scan false (entry.lines ++ (more.flatMap HunkLine.lines ++ rest)) =
          run env (scan.content entry.line) false (more.flatMap HunkLine.lines ++ rest) := by
        rw [HunkLine.lines]
        split
        · rw [List.cons_append, List.cons_append, List.nil_append, line, run,
            isNoNewlineLine_marker, if_pos rfl]
        · rw [List.cons_append, List.nil_append, line]
      rw [List.flatMap_cons, List.append_assoc, marked, further, content_line]
      simp only [List.append_assoc, ← List.map_append, ← List.filter_append,
        List.singleton_append]

theorem run_hunk
    {hunk : UnifiedHunk}
    (plain : ∀ line ∈ hunk.ownLines, isNoNewlineLine line = false)
    (scan : HunkScan)
    (isFirst : Bool)
    (rest : List (List Char))
    (fresh : scan.finish.newContent = [] ∧ scan.finish.oldContent = []) :
    run env scan isFirst (hunk.lines ++ rest) =
      run env
        { written := scan.finish.written
          newContent := hunk.newSide
          oldContent := hunk.oldSide
          start2 := hunk.start2
          header := hunk.header }
        false rest := by
  obtain ⟨found, matched, start⟩ := hunk.matchHeader_header env
  have header := plain hunk.header List.mem_cons_self
  have body : ∀ entry ∈ hunk.body, isNoNewlineLine entry.line = false := fun entry member =>
    plain entry.line (List.mem_cons_of_mem _ (List.mem_map_of_mem member))
  rw [UnifiedHunk.lines, List.cons_append, run, header, startsHeader_header, matched]
  simp only [Bool.false_eq_true, if_false, if_true]
  rw [run_body env body]
  simp only [enter, start, env.number_toDigits, fresh.1, fresh.2, List.nil_append]
  rfl

theorem finish_fresh :
    scan.finish.newContent = [] ∧ scan.finish.oldContent = [] := by
  rw [finish]
  split
  · next empty => exact empty
  · exact ⟨rfl, rfl⟩

/-- The state behind some hunks, the last of which is still being read. -/
def behind (written : List UnifiedHunk) (last : UnifiedHunk) : HunkScan where
  written := written.map (·.numbered)
  newContent := last.newSide
  oldContent := last.oldSide
  start2 := last.start2
  header := last.header

variable (written : List UnifiedHunk)

theorem finish_behind
    (last : UnifiedHunk) :
    (behind written last).finish.written = (written ++ [last]).map (·.numbered) := by
  have filled : ¬ ((behind written last).newContent = [] ∧
      (behind written last).oldContent = []) :=
    last.sides_ne_nil
  rw [finish, if_neg filled, List.map_append, List.map_singleton, ← last.numberedHunk_sides]
  rfl

theorem run_hunks
    {hunks : List UnifiedHunk}
    (plain : ∀ hunk ∈ hunks, ∀ line ∈ hunk.ownLines, isNoNewlineLine line = false)
    (written : List UnifiedHunk)
    (last : UnifiedHunk) :
    run env (behind written last) false (hunks.flatMap UnifiedHunk.lines) =
      some (behind ((written ++ last :: hunks).dropLast) ((last :: hunks).getLast
        (List.cons_ne_nil _ _))) := by
  induction hunks generalizing written last with
  | nil =>
      rw [List.dropLast_concat]
      rfl
  | cons hunk more ih =>
      have first := plain hunk List.mem_cons_self
      have further := ih
        (fun other member => plain other (List.mem_cons_of_mem _ member))
        (written ++ [last]) hunk
      rw [List.append_assoc, List.singleton_append] at further
      rw [List.flatMap_cons, run_hunk env first _ _ _ (finish_fresh _), finish_behind,
        List.getLast_cons (List.cons_ne_nil _ _)]
      exact further

theorem close_behind
    (last : UnifiedHunk) :
    (behind written last).close =
      if last.newSide = [] then written.map (·.numbered)
      else (written ++ [last]).map (·.numbered) := by
  have header : (behind written last).header ≠ [] :=
    List.cons_ne_nil _ _
  rw [close, List.map_append, List.map_singleton, ← last.numberedHunk_sides]
  by_cases empty : last.newSide = []
  · have unwritten : ¬ ((behind written last).header ≠ [] ∧
        (behind written last).newContent ≠ []) := fun both => both.2 empty
    rw [if_neg unwritten, if_pos empty]
    rfl
  · rw [if_pos ⟨header, empty⟩, if_neg empty]
    rfl

/-! ## What is written stood in the text -/

/-- Every line that is kept was read and is no marker. -/
structure KeptFrom (lines : List (List Char)) (hunk : NumberedHunk) : Prop where
  header : hunk.header = [] ∨ hunk.header ∈ lines ∧ isNoNewlineLine hunk.header = false
  newLines : ∀ entry ∈ hunk.newLines, entry.2 ∈ lines ∧ isNoNewlineLine entry.2 = false
  oldLines : ∀ line ∈ hunk.oldLines, line ∈ lines ∧ isNoNewlineLine line = false

/-- The same for the variables of the loop. -/
structure ScanFrom (lines : List (List Char)) (scan : HunkScan) : Prop where
  written : ∀ hunk ∈ scan.written, KeptFrom lines hunk
  header : scan.header = [] ∨ scan.header ∈ lines ∧ isNoNewlineLine scan.header = false
  newContent : ∀ line ∈ scan.newContent, line ∈ lines ∧ isNoNewlineLine line = false
  oldContent : ∀ line ∈ scan.oldContent, line ∈ lines ∧ isNoNewlineLine line = false

theorem mem_of_mem_numberFrom
    {start : Int}
    {lines : List (List Char)}
    {entry : Int × List Char}
    (member : entry ∈ numberFrom start lines) :
    entry.2 ∈ lines := by
  obtain ⟨source, inLines, rfl⟩ := List.mem_map.mp member
  exact List.fst_mem_of_mem_zipIdx inLines

namespace ScanFrom

variable {lines : List (List Char)} {scan : HunkScan}

theorem hunk
    (kept : ScanFrom lines scan) :
    KeptFrom lines scan.hunk := by
  refine ⟨kept.header, ?_, ?_⟩
  · intro entry member
    rw [HunkScan.hunk, numberedHunk] at member
    dsimp only at member
    split at member
    · exact kept.newContent _ (mem_of_mem_numberFrom member)
    · exact absurd member List.not_mem_nil
  · intro line member
    rw [HunkScan.hunk, numberedHunk] at member
    dsimp only at member
    split at member
    · exact kept.oldContent line member
    · exact absurd member List.not_mem_nil

theorem written_append
    (kept : ScanFrom lines scan) :
    ∀ hunk ∈ scan.written ++ [scan.hunk], KeptFrom lines hunk := by
  intro hunk member
  rcases List.mem_append.mp member with earlier | last
  · exact kept.written hunk earlier
  · rw [List.mem_singleton.mp last]
    exact kept.hunk

theorem finish
    (kept : ScanFrom lines scan) :
    ScanFrom lines scan.finish := by
  rw [HunkScan.finish]
  split
  · exact kept
  · exact ⟨kept.written_append, kept.header, fun _ member => absurd member List.not_mem_nil,
      fun _ member => absurd member List.not_mem_nil⟩

theorem content
    (kept : ScanFrom lines scan)
    {line : List Char}
    (read : line ∈ lines ∧ isNoNewlineLine line = false) :
    ScanFrom lines (scan.content line) := by
  have extended : ∀ content : List (List Char),
      (∀ other ∈ content, other ∈ lines ∧ isNoNewlineLine other = false) →
      ∀ other ∈ content ++ [line], other ∈ lines ∧ isNoNewlineLine other = false := by
    intro content earlier other member
    rcases List.mem_append.mp member with old | new
    · exact earlier other old
    · rw [List.mem_singleton.mp new]
      exact read
  rw [HunkScan.content]
  split
  · exact ⟨kept.written, kept.header, extended _ kept.newContent, kept.oldContent⟩
  · split
    · exact ⟨kept.written, kept.header, kept.newContent, extended _ kept.oldContent⟩
    · exact ⟨kept.written, kept.header, extended _ kept.newContent,
        extended _ kept.oldContent⟩

theorem run
    {env : DigitEnv}
    {rest : List (List Char)}
    {isFirst : Bool}
    {final : HunkScan}
    (kept : ScanFrom lines scan)
    (within : ∀ line ∈ rest, line ∈ lines)
    (finished : HunkScan.run env scan isFirst rest = some final) :
    ScanFrom lines final := by
  induction rest generalizing scan isFirst with
  | nil =>
      injection finished with same
      rw [← same]
      exact kept
  | cons line rest ih =>
      have here := within line List.mem_cons_self
      have later := fun other member => within other (List.mem_cons_of_mem line member)
      rw [HunkScan.run] at finished
      by_cases skipped : isNoNewlineLine line = true
      · rw [if_pos skipped] at finished
        exact ih kept later finished
      · have read : line ∈ lines ∧ isNoNewlineLine line = false :=
          ⟨here, Bool.not_eq_true _ ▸ skipped⟩
        rw [if_neg skipped] at finished
        by_cases header : startsHeader line = true
        · rw [if_pos header] at finished
          cases found : env.matchHeader line with
          | none =>
              rw [found] at finished
              cases finished
          | some groups =>
              rw [found] at finished
              have ended := kept.finish
              have entered : ScanFrom lines (scan.enter env line groups) :=
                ⟨ended.written, Or.inr read, ended.newContent, ended.oldContent⟩
              exact ih entered later finished
        · rw [if_neg header] at finished
          split at finished
          · exact ih kept later finished
          · exact ih (kept.content read) later finished

theorem close
    (kept : ScanFrom lines scan) :
    ∀ hunk ∈ scan.close, KeptFrom lines hunk := by
  rw [HunkScan.close]
  split
  · exact kept.written_append
  · exact kept.written

end ScanFrom

end HunkScan

theorem UnifiedHunk.ownLines_of_keptFrom
    {lines : List (List Char)}
    {hunk : UnifiedHunk}
    (kept : HunkScan.KeptFrom lines hunk.numbered) :
    ∀ line ∈ hunk.ownLines, line ∈ lines ∧ isNoNewlineLine line = false := by
  intro line member
  rcases List.mem_cons.mp member with header | inBody
  · rw [header]
    exact kept.header.resolve_left (List.cons_ne_nil _ _)
  · obtain ⟨entry, inHunk, rfl⟩ := List.mem_map.mp inBody
    by_cases deletion : entry.kind = .deletion
    · refine kept.oldLines entry.line ?_
      have some : hunk.body.any (·.kind = .deletion) = true :=
        List.any_eq_true.mpr ⟨entry, inHunk, decide_eq_true deletion⟩
      have onOldSide : entry.line ∈ hunk.oldSide :=
        List.mem_map_of_mem (List.mem_filter.mpr ⟨inHunk, by simp [deletion]⟩)
      rw [numbered, some, if_pos rfl]
      exact onOldSide
    · have onNewSide : entry.line ∈
          (hunk.body.filter (·.kind ≠ .deletion)).map (·.line) :=
        List.mem_map_of_mem (List.mem_filter.mpr ⟨inHunk, by simp [deletion]⟩)
      obtain ⟨index, bound, same⟩ := List.getElem_of_mem onNewSide
      have numberedLine : ((hunk.start2 + index : Int), entry.line) ∈ hunk.numbered.newLines := by
        rw [numbered, newFileLines_eq, numberFrom]
        refine List.mem_map.mpr ⟨(entry.line, index), ?_, rfl⟩
        rw [List.mem_zipIdx_iff_getElem?, ← same]
        exact List.getElem?_eq_getElem bound
      exact kept.newLines _ numberedLine

/-! ## The condition -/

/-- When a patch is converted as a whole. -/
structure Convertible (file : Option PatchFile) (hunks : List UnifiedHunk) : Prop where
  present : ∀ info ∈ file, info.editType = .deleted → hunks = []
  plain : ∀ hunk ∈ hunks, ∀ line ∈ hunk.ownLines,
    unbroken line = true ∧ isNoNewlineLine line = false
  lastRemains : ∀ last ∈ hunks.getLast?, last.newSide ≠ []

/-- The patch of some hunks. -/
def patchOf (final : Bool) (ends : Nat → Bool) (hunks : List UnifiedHunk) : String :=
  String.ofList (patchText final ends (hunks.flatMap UnifiedHunk.lines))

variable {hunks : List UnifiedHunk}

theorem splitLines_patchOf
    (plain : ∀ hunk ∈ hunks, ∀ line ∈ hunk.ownLines, unbroken line = true)
    (final : Bool)
    (ends : Nat → Bool) :
    splitLines (patchOf final ends hunks) = hunks.flatMap UnifiedHunk.lines := by
  rw [splitLines, patchOf, String.toList_ofList]
  refine splitLinesFrom_patchText ?_ final ends
  intro line member
  obtain ⟨hunk, inHunks, inHunk⟩ := List.mem_flatMap.mp member
  have whole := plain hunk inHunks
  rcases List.mem_cons.mp inHunk with header | inBody
  · rw [header]
    exact ⟨whole _ List.mem_cons_self, List.cons_ne_nil _ _⟩
  · obtain ⟨entry, inLines, ofEntry⟩ := List.mem_flatMap.mp inBody
    have own : unbroken entry.line = true :=
      whole _ (List.mem_cons_of_mem _ (List.mem_map_of_mem inLines))
    rw [HunkLine.lines] at ofEntry
    split at ofEntry
    · rcases List.mem_cons.mp ofEntry with here | marker
      · rw [here]
        exact ⟨own, List.cons_ne_nil _ _⟩
      · rw [List.mem_singleton.mp marker]
        exact ⟨by decide +kernel, List.cons_ne_nil _ _⟩
    · rw [List.mem_singleton.mp ofEntry]
      exact ⟨own, List.cons_ne_nil _ _⟩

theorem close_run_hunks
    (env : DigitEnv)
    (plain : ∀ hunk ∈ hunks, ∀ line ∈ hunk.ownLines, isNoNewlineLine line = false) :
    (HunkScan.run env {} true (hunks.flatMap UnifiedHunk.lines)).map (·.close) =
      some (if hunks.getLast?.any (·.newSide = []) then hunks.dropLast.map (·.numbered)
        else hunks.map (·.numbered)) := by
  cases hunks with
  | nil =>
      rfl
  | cons hunk rest =>
      have first := plain hunk List.mem_cons_self
      have read := HunkScan.run_hunks env
        (fun other member => plain other (List.mem_cons_of_mem hunk member)) [] hunk
      rw [List.flatMap_cons, HunkScan.run_hunk env first {} true _ ⟨rfl, rfl⟩]
      change (HunkScan.run env (HunkScan.behind [] hunk) false _).map _ = _
      rw [read, List.nil_append, Option.map_some, HunkScan.close_behind,
        List.getLast?_eq_getLast_of_ne_nil (List.cons_ne_nil hunk rest),
        List.dropLast_concat_getLast]
      by_cases empty : ((hunk :: rest).getLast (List.cons_ne_nil _ _)).newSide = []
      · simp [empty]
      · simp [empty]

theorem plain_of_complete
    {env : DigitEnv}
    {patch : String}
    (complete : (HunkScan.run env {} true (splitLines patch)).map (·.close) =
      some (hunks.map (·.numbered))) :
    ∀ hunk ∈ hunks, ∀ line ∈ hunk.ownLines,
      unbroken line = true ∧ isNoNewlineLine line = false := by
  obtain ⟨final, finished, closed⟩ := Option.map_eq_some_iff.mp complete
  have begun : HunkScan.ScanFrom (splitLines patch) {} :=
    ⟨fun _ member => absurd member List.not_mem_nil, Or.inl rfl,
      fun _ member => absurd member List.not_mem_nil,
      fun _ member => absurd member List.not_mem_nil⟩
  have kept := (begun.run (fun _ member => member) finished).close
  rw [closed] at kept
  intro hunk inHunks line inHunk
  have ⟨inPatch, unmarked⟩ :=
    UnifiedHunk.ownLines_of_keptFrom (kept _ (List.mem_map_of_mem inHunks)) line inHunk
  exact ⟨unbroken_of_mem_splitLines inPatch, unmarked⟩

/-- The text is all hunks of the patch with their numbers exactly when every line stays whole, none
reads like a marker and the last new side has a line. -/
theorem numbered_conversion_exact_iff
    (env : DigitEnv)
    (file : Option PatchFile)
    (hunks : List UnifiedHunk)
    (final : Bool)
    (ends : Nat → Bool) :
    decoupleAndConvertToHunksWithLinesNumbers env (patchOf final ends hunks) file =
        (writtenHunks env (patchOf final ends hunks) file).map (writtenText file) ∧
      (writtenHunks env (patchOf final ends hunks) file = some (hunks.map (·.numbered)) ↔
        Convertible file hunks) := by
  refine ⟨decouple_eq env _ file, ?_⟩
  have read : (∀ hunk ∈ hunks, ∀ line ∈ hunk.ownLines,
        unbroken line = true ∧ isNoNewlineLine line = false) →
      (HunkScan.run env {} true (splitLines (patchOf final ends hunks))).map (·.close) =
        some (if hunks.getLast?.any (·.newSide = []) then hunks.dropLast.map (·.numbered)
          else hunks.map (·.numbered)) := by
    intro plain
    rw [splitLines_patchOf (fun hunk inHunks line inHunk => (plain hunk inHunks line inHunk).1)]
    exact close_run_hunks env fun hunk inHunks line inHunk => (plain hunk inHunks line inHunk).2
  constructor
  · intro complete
    rw [writtenHunks] at complete
    cases removed : file.filter (·.editType = .deleted) with
    | some info =>
        rw [removed] at complete
        injection complete with empty
        have none : hunks = [] := List.map_eq_nil_iff.mp empty.symm
        subst none
        exact ⟨fun _ _ _ => rfl, fun _ member => absurd member List.not_mem_nil,
          fun last member => absurd member (Option.not_mem_none last)⟩
    | none =>
        rw [removed] at complete
        have plain := plain_of_complete complete
        refine ⟨?_, plain, ?_⟩
        · intro info given deleted
          rw [Option.filter_eq_none_iff] at removed
          exact absurd (decide_eq_true deleted) (removed info given)
        · intro last isLast empty
          have shorter := (read plain).symm.trans complete
          rw [Option.mem_def.mp isLast, Option.any_some, decide_eq_true empty, if_pos rfl] at shorter
          injection shorter with same
          have lengths := congrArg List.length same
          rw [List.length_map, List.length_map, List.length_dropLast] at lengths
          have filled : 0 < hunks.length :=
            List.length_pos_of_mem (List.mem_of_getLast? (Option.mem_def.mp isLast))
          omega
  · intro condition
    rw [writtenHunks]
    cases removed : file.filter (·.editType = .deleted) with
    | some info =>
        obtain ⟨given, deleted⟩ := Option.filter_eq_some_iff.mp removed
        rw [condition.present info given (of_decide_eq_true deleted)]
        rfl
    | none =>
        have whole : hunks.getLast?.any (·.newSide = []) = false := by
          rw [Option.any_eq_false]
          intro last isLast
          exact decide_eq_false (condition.lastRemains last isLast)
        simp only [read condition.plain, whole, Bool.false_eq_true, if_false]

/-- A line without a line feed. -/
def plainText (text : String) (oneLine : '\n' ∉ text.toList) : LineText :=
  ⟨text.toList, oneLine⟩

/-- A file that loses its only line. -/
def emptiedFile : UnifiedHunk where
  start1 := 1
  start2 := 0
  body := [⟨.deletion, plainText "password" (by decide +kernel), false⟩]
  changes := ⟨_, List.mem_cons_self, by decide⟩

/-- A deletion without context at the end is not written at all. -/
theorem deletion_at_the_end_is_dropped :
    decoupleAndConvertToHunksWithLinesNumbers ⟨fun _ => none⟩
        (patchOf true (fun _ => false) [emptiedFile])
        (some ⟨"notes.txt", .modified⟩) = some "\n\n## File: 'notes.txt'".toList ∧
      writtenHunks ⟨fun _ => none⟩ (patchOf true (fun _ => false) [emptiedFile])
        (some ⟨"notes.txt", .modified⟩) ≠ some ([emptiedFile].map (·.numbered)) := by
  decide +kernel

end MrAgent
