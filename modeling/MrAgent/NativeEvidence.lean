import Mathlib
import MrAgent.PageCoverage

namespace MrAgent

/-!
# What a native commit needs

The evidence of a native repair is a fold over all tool attempts. A commit is
allowed exactly when the attempts contain a trace: a patch that nothing has
replaced, pages that show all of its Diff, and a validation behind them.
-/

/-! ## The trace -/

/-- The tools that apply a patch. -/
def ToolAttempt.patches (attempt : ToolAttempt) : Bool :=
  attempt.name = .applyRepoPatch || attempt.name = .applyFormatReport

/-- The workspace was discarded. -/
def ToolAttempt.discards (attempt : ToolAttempt) : Bool :=
  attempt.name = .discardWorkspace && attempt.facts.status = .success

/-- A page of a Diff was shown. -/
def ToolAttempt.showsPage (attempt : ToolAttempt) : Bool :=
  attempt.name = .inspectRepoDiff && attempt.facts.status = .ok

/-- The local validation was run. -/
def ToolAttempt.validates (attempt : ToolAttempt) : Bool :=
  attempt.name = .runRepoValidation

/-- The last successful patch behind the last successful discard, and the attempts after it. -/
structure LastPatch (attempts : List ToolAttempt) (patch : ToolResult)
    (after : List ToolAttempt) : Prop where
  split : ∃ before attempt, attempts = before ++ attempt :: after ∧
    attempt.patches = true ∧ attempt.facts = patch
  applied : successfulPatch patch = true
  kept : ∀ later ∈ after, later.discards = false
  last : ∀ later ∈ after, later.patches = true → successfulPatch later.facts = false

/-- The pages that were shown. -/
def inspectedPages (attempts : List ToolAttempt) : List ToolResult :=
  (attempts.filter (·.showsPage)).map (·.facts)

/-- A page belongs to the Diff of the patch and lies within its own total. -/
def PageOfDiff (patch page : ToolResult) : Prop :=
  (page.baseSha = patch.baseSha ∧ page.diffDigest = patch.diffDigest) ∧
    page.pageReadable = true ∧ page.totalLines > 0 ∧ 1 ≤ page.startLine ∧
      page.startLine ≤ page.endLine ∧ page.endLine ≤ page.totalLines

instance (patch page : ToolResult) : Decidable (PageOfDiff patch page) :=
  inferInstanceAs (Decidable (_ ∧ _))

/-- The total line count of the Diff, as its first page states it. -/
def diffTotal (patch : ToolResult) (pages : List ToolResult) : Option Int :=
  (pages.find? fun page => decide (PageOfDiff patch page)).map (·.totalLines)

/-- The pages of the Diff that state its total; every other page is stale. -/
def reviewedPages (patch : ToolResult) (pages : List ToolResult) : List ToolResult :=
  pages.filter fun page =>
    decide (PageOfDiff patch page) && decide (diffTotal patch pages = some page.totalLines)

/-- The pages show every line of the Diff. -/
def ReviewComplete (patch : ToolResult) (pages : List ToolResult) : Prop :=
  ∃ total, diffTotal patch pages = some total ∧
    ∀ line, 1 ≤ line → line ≤ total →
      ∃ page ∈ reviewedPages patch pages, page.startLine ≤ line ∧ line ≤ page.endLine

/-- No page behind the last page of the Diff is stale. -/
def NoLaterStalePage (patch : ToolResult) (pages : List ToolResult) : Prop :=
  ∀ page ∈ pages.getLast?, page ∈ reviewedPages patch pages

/-- A validation of the Diff passed with every required check. -/
structure ValidationPassed (patch validation : ToolResult) : Prop where
  identity : validation.baseSha = patch.baseSha ∧
    validation.validatedDiffDigest = patch.diffDigest
  statusOk : validation.status = .ok
  allPassed : validation.allPassed = true
  checks : ∀ check ∈ validation.requiredChecks, check ≠ "" →
    ∃ executed, (validation.executedChecks.filter (·.name = check)).getLast? = some executed ∧
      executed.passed = true

/-- The last validation and the attempts before it. -/
def LastValidation (after front : List ToolAttempt) (validation : ToolResult) : Prop :=
  ∃ attempt back, after = front ++ attempt :: back ∧ attempt.validates = true ∧
    attempt.facts = validation ∧ ∀ later ∈ back, later.validates = false

/-! ## Pages -/

section Pages

variable {patch page : ToolResult} {pages : List ToolResult}

theorem diffTotal_pos {total : Int} (found : diffTotal patch pages = some total) : 0 < total := by
  obtain ⟨page, first, rfl⟩ := Option.map_eq_some_iff.mp found
  have belongs := List.find?_some first
  exact (of_decide_eq_true belongs).2.2.1

theorem diffTotal_append :
    diffTotal patch (pages ++ [page]) =
      (diffTotal patch pages).or (if PageOfDiff patch page then some page.totalLines else none) := by
  by_cases belongs : PageOfDiff patch page <;>
    simp [diffTotal, List.find?_append, belongs]

theorem not_pageOfDiff_of_unknown (unknown : diffTotal patch pages = none) :
    ∀ page ∈ pages, ¬PageOfDiff patch page := by
  have none := Option.map_eq_none_iff.mp unknown
  simpa using List.find?_eq_none.mp none

theorem mem_reviewedPages_append :
    page ∈ reviewedPages patch (pages ++ [page]) ↔
      PageOfDiff patch page ∧ ((diffTotal patch pages).getD 0 = 0 ∨
        (diffTotal patch pages).getD 0 = page.totalLines) := by
  have positive : ∀ total, diffTotal patch pages = some total → total ≠ 0 :=
    fun total found => (diffTotal_pos found).ne'
  by_cases belongs : PageOfDiff patch page
  · cases found : diffTotal patch pages with
    | none =>
        simp [reviewedPages, diffTotal_append, found, belongs]
    | some total =>
        simp [reviewedPages, diffTotal_append, found, belongs, positive total found]
  · simp [reviewedPages, belongs]

theorem reviewedPages_append_fitting
    (fits : page ∈ reviewedPages patch (pages ++ [page])) :
    diffTotal patch (pages ++ [page]) = some page.totalLines ∧
      reviewedPages patch (pages ++ [page]) = reviewedPages patch pages ++ [page] := by
  obtain ⟨belongs, total⟩ := mem_reviewedPages_append.mp fits
  cases found : diffTotal patch pages with
  | none =>
      have strangers := not_pageOfDiff_of_unknown found
      have now : diffTotal patch (pages ++ [page]) = some page.totalLines := by
        simp [diffTotal_append, found, belongs]
      have before : ∀ limit : Option Int, pages.filter (fun other =>
          decide (PageOfDiff patch other) && decide (limit = some other.totalLines)) = [] := by
        intro limit
        refine List.filter_eq_nil_iff.mpr fun other member => ?_
        simp [strangers other member]
      refine ⟨now, ?_⟩
      rw [reviewedPages, now, List.filter_append, before, reviewedPages, before]
      simp [belongs]
  | some known =>
      have same : known = page.totalLines := by
        have positive := diffTotal_pos found
        rw [found] at total
        simp only [Option.getD_some] at total
        omega
      have now : diffTotal patch (pages ++ [page]) = some page.totalLines := by
        simp [diffTotal_append, found, same]
      refine ⟨now, ?_⟩
      rw [reviewedPages, now, List.filter_append, reviewedPages, found, same]
      simp [belongs]

theorem reviewedPages_append_stale
    (stale : page ∉ reviewedPages patch (pages ++ [page])) :
    diffTotal patch (pages ++ [page]) = diffTotal patch pages ∧
      reviewedPages patch (pages ++ [page]) = reviewedPages patch pages := by
  have misfit := mt mem_reviewedPages_append.mpr stale
  have total : diffTotal patch (pages ++ [page]) = diffTotal patch pages := by
    cases found : diffTotal patch pages with
    | none =>
        have stranger : ¬PageOfDiff patch page := by
          simpa [found] using misfit
        simp [diffTotal_append, found, stranger]
    | some known =>
        simp [diffTotal_append, found]
  refine ⟨total, ?_⟩
  have last : page ∉ (pages ++ [page]).filter fun other =>
      decide (PageOfDiff patch other) &&
        decide (diffTotal patch (pages ++ [page]) = some other.totalLines) := stale
  rw [total, List.filter_append, List.mem_append, not_or] at last
  rw [reviewedPages, total, List.filter_append, reviewedPages]
  have dropped : ([page].filter fun other => decide (PageOfDiff patch other) &&
      decide (diffTotal patch pages = some other.totalLines)) = [] := by
    refine List.filter_eq_nil_iff.mpr fun other member kept => last.2 ?_
    rw [List.mem_singleton.mp member] at kept
    exact List.mem_filter.mpr ⟨List.mem_singleton_self page, kept⟩
  rw [dropped, List.append_nil]

end Pages

/-! ## Checks -/

variable {check : String}

variable {executed : List ExecutedCheck}

theorem checkPassed_iff :
    NativeReduction.checkPassed executed check = true ↔
      ∃ entry, (executed.filter (·.name = check)).getLast? = some entry ∧
        entry.passed = true := by
  rw [NativeReduction.checkPassed]
  cases (executed.filter (·.name = check)).getLast? <;> simp

theorem filter_named
    (executed : List ExecutedCheck)
    (named : check ≠ "") :
    (executed.filter (·.name ≠ "")).filter (·.name = check) =
      executed.filter (·.name = check) := by
  rw [List.filter_filter]
  refine List.filter_congr fun entry _ => ?_
  by_cases same : entry.name = check <;> simp [same, named]

theorem mem_names_of_checkPassed
    (passed : NativeReduction.checkPassed executed check = true) :
    check ∈ executed.map (·.name) := by
  obtain ⟨entry, last, -⟩ := checkPassed_iff.mp passed
  have member := List.mem_filter.mp (List.mem_of_getLast? last)
  exact List.mem_map.mpr ⟨entry, member.1, of_decide_eq_true member.2⟩

/-! ## One attempt -/

section Attempt

variable {attempt : ToolAttempt} (reduction : NativeReduction)

theorem reduce_applied
    (patches : attempt.patches = true)
    (applied : successfulPatch attempt.facts = true) :
    reduction.reduce attempt =
      ({} : NativeReduction).patched attempt.sequence attempt.facts := by
  have name : attempt.name = .applyRepoPatch ∨ attempt.name = .applyFormatReport := by
    simpa [ToolAttempt.patches] using patches
  rcases name with name | name <;>
    simp only [NativeReduction.reduce, name, NativeReduction.patched, applied, if_true]

theorem reduce_failedPatch
    (digest : reduction.evidence.diffDigest ≠ "")
    (patches : attempt.patches = true)
    (failed : successfulPatch attempt.facts = false) :
    reduction.reduce attempt =
      { reduction with
        evidence := { reduction.evidence with
          lastPatchSequence := attempt.sequence
          lastPatchStatus := attempt.facts.status
          failedPatchAfterSuccess := true } } := by
  have name : attempt.name = .applyRepoPatch ∨ attempt.name = .applyFormatReport := by
    simpa [ToolAttempt.patches] using patches
  rcases name with name | name <;>
    simp only [NativeReduction.reduce, name, NativeReduction.patched, failed, digest, ne_eq,
      not_false_eq_true, if_true, Bool.false_eq_true, if_false]

theorem reduce_page
    (digest : reduction.evidence.diffDigest ≠ "")
    (page : attempt.showsPage = true) :
    reduction.reduce attempt = reduction.inspected attempt.sequence attempt.facts := by
  simp only [ToolAttempt.showsPage, Bool.and_eq_true, decide_eq_true_eq] at page
  simp only [NativeReduction.reduce, page.1, digest, page.2, ne_eq, not_false_eq_true, and_self,
    if_true]

theorem reduce_validation
    (digest : reduction.evidence.diffDigest ≠ "")
    (validates : attempt.validates = true) :
    reduction.reduce attempt = reduction.validated attempt.sequence attempt.facts := by
  have name : attempt.name = .runRepoValidation := of_decide_eq_true validates
  simp only [NativeReduction.reduce, name, digest, ne_eq, not_false_eq_true, if_true]

theorem reduce_discard (discards : attempt.discards = true) :
    reduction.reduce attempt = {} := by
  simp only [ToolAttempt.discards, Bool.and_eq_true, decide_eq_true_eq] at discards
  simp only [NativeReduction.reduce, discards.1, discards.2, if_true]

theorem reduce_other
    (kept : attempt.discards = false)
    (noPatch : attempt.patches = false)
    (noPage : attempt.showsPage = false)
    (noValidation : attempt.validates = false) :
    reduction.reduce attempt = reduction := by
  cases name : attempt.name with
  | discardWorkspace =>
      have status : attempt.facts.status ≠ .success := by
        simpa [ToolAttempt.discards, name] using kept
      simp only [NativeReduction.reduce, name, status, if_false]
  | inspectRepoDiff =>
      have status : attempt.facts.status ≠ .ok := by
        simpa [ToolAttempt.showsPage, name] using noPage
      simp only [NativeReduction.reduce, name, status, and_false, if_false]
  | applyRepoPatch =>
      simp [ToolAttempt.patches, name] at noPatch
  | applyFormatReport =>
      simp [ToolAttempt.patches, name] at noPatch
  | runRepoValidation =>
      simp [ToolAttempt.validates, name] at noValidation
  | _ =>
      simp only [NativeReduction.reduce, name]

theorem reduce_without_patch
    (empty : reduction.evidence.diffDigest = "")
    (failed : attempt.patches = true → successfulPatch attempt.facts = false) :
    (reduction.reduce attempt).evidence.diffDigest = "" := by
  by_cases patches : attempt.patches = true
  · have name : attempt.name = .applyRepoPatch ∨ attempt.name = .applyFormatReport := by
      simpa [ToolAttempt.patches] using patches
    rcases name with name | name <;>
      simp only [NativeReduction.reduce, name, NativeReduction.patched, failed patches, empty,
        ne_eq, not_true_eq_false, Bool.false_eq_true, if_false]
  · cases name : attempt.name with
    | discardWorkspace =>
        simp only [NativeReduction.reduce, name]
        split
        · rfl
        · exact empty
    | applyRepoPatch =>
        exact absurd (by simp [ToolAttempt.patches, name]) patches
    | applyFormatReport =>
        exact absurd (by simp [ToolAttempt.patches, name]) patches
    | inspectRepoDiff =>
        simp only [NativeReduction.reduce, name, empty, ne_eq, not_true_eq_false, false_and,
          if_false]
    | runRepoValidation =>
        simp only [NativeReduction.reduce, name, empty, ne_eq, not_true_eq_false, if_false]
    | _ =>
        simpa only [NativeReduction.reduce, name] using empty

end Attempt

/-! ## What a reduction knows -/

/-- The fields that the last validation has left. -/
structure ValidationRecorded (patch : ToolResult) (front : List ToolAttempt)
    (validation : ToolResult) (reduction : NativeReduction) : Prop where
  sequence : 0 ≤ reduction.evidence.validationSequence
  fresh : reduction.validationStale = false ↔
    ReviewComplete patch (inspectedPages front) ∧ validation.baseSha = patch.baseSha ∧
      validation.validatedDiffDigest = patch.diffDigest
  checks : (reduction.missingRequiredChecks = [] ∧ reduction.failedRequiredChecks = []) ↔
    ∀ check ∈ validation.requiredChecks, check ≠ "" →
      ∃ executed, (validation.executedChecks.filter (·.name = check)).getLast? = some executed ∧
        executed.passed = true
  status : reduction.evidence.validationStatus = validation.status
  allPassed : reduction.evidence.allPassed = validation.allPassed
  errorCode : reduction.evidence.validationErrorCode = validation.errorCode

/-- The fields that the pages have left. -/
structure PagesRecorded (patch : ToolResult) (pages : List ToolResult)
    (reduction : NativeReduction) : Prop where
  total : reduction.evidence.totalLines = (diffTotal patch pages).getD 0
  ranges : ∀ interval ∈ reduction.evidence.coveredIntervals,
    PageRange reduction.evidence.totalLines interval
  covers : ∀ line, CoversLine reduction.evidence.coveredIntervals line ↔
    ∃ page ∈ reviewedPages patch pages, page.startLine ≤ line ∧ line ≤ page.endLine
  complete : reduction.evidence.diffReviewComplete = true ↔ ReviewComplete patch pages
  fresh : reduction.diffReviewStale = false ↔ NoLaterStalePage patch pages

/-- What a reduction holds behind a patch. -/
structure Reflects (patch : ToolResult) (after : List ToolAttempt)
    (reduction : NativeReduction) : Prop where
  baseSha : reduction.evidence.baseSha = patch.baseSha
  diffDigest : reduction.evidence.diffDigest = patch.diffDigest
  failed : reduction.evidence.failedPatchAfterSuccess = after.any (·.patches)
  pages : PagesRecorded patch (inspectedPages after) reduction
  validation :
    ((∀ attempt ∈ after, attempt.validates = false) ∧
      reduction.evidence.validationSequence < 0) ∨
    ∃ front validation, LastValidation after front validation ∧
      ValidationRecorded patch front validation reduction

variable {patch : ToolResult}

theorem reflects_patched
    (applied : successfulPatch patch = true)
    (before : NativeReduction)
    (sequence : Nat) :
    Reflects patch [] (before.patched sequence patch) := by
  have fresh : before.patched sequence patch =
      { evidence :=
        { lastPatchSequence := sequence
          lastPatchStatus := patch.status
          lastPatchWorkItemId := patch.workItemId
          baseSha := patch.baseSha
          diffDigest := patch.diffDigest
          changedFiles := patch.changedFiles.filter (· ≠ "") } } :=
    if_pos applied
  rw [fresh]
  refine ⟨rfl, rfl, rfl, ?_, Or.inl ⟨by simp, by simp⟩⟩
  refine ⟨rfl, by simp, by simp [CoversLine, inspectedPages, reviewedPages], ?_, ?_⟩
  · simp [ReviewComplete, inspectedPages, diffTotal]
  · simp [NoLaterStalePage, inspectedPages]

section Steps

variable {patch : ToolResult} {after : List ToolAttempt} {reduction : NativeReduction}
  {attempt : ToolAttempt}

variable {front : List ToolAttempt} {validation : ToolResult}

theorem LastValidation.append
    (last : LastValidation after front validation)
    (other : attempt.validates = false) :
    LastValidation (after ++ [attempt]) front validation := by
  obtain ⟨validated, back, rfl, kind, facts, later⟩ := last
  refine ⟨validated, back ++ [attempt], by simp, kind, facts, ?_⟩
  intro next member
  rcases List.mem_append.mp member with inBack | isLast
  · exact later next inBack
  · rw [List.mem_singleton.mp isLast]
    exact other

theorem LastValidation.unique
    {front other : List ToolAttempt}
    {validation result : ToolResult}
    (last : LastValidation after front validation)
    (again : LastValidation after other result) :
    front = other ∧ validation = result := by
  obtain ⟨first, back, rfl, kind, rfl, later⟩ := last
  obtain ⟨second, rest, same, otherKind, rfl, others⟩ := again
  rcases List.append_eq_append_iff.mp same with ⟨between, rfl, split⟩ | ⟨between, rfl, split⟩
  · cases between with
    | nil =>
        simp only [List.nil_append, List.cons.injEq] at split
        simp [split.1]
    | cons head tail =>
        simp only [List.cons_append, List.cons.injEq] at split
        have none := later second (by simp [split.2])
        simp [otherKind] at none
  · cases between with
    | nil =>
        simp only [List.nil_append, List.cons.injEq] at split
        simp [split.1]
    | cons head tail =>
        simp only [List.cons_append, List.cons.injEq] at split
        have none := others first (by simp [split.2])
        simp [kind] at none

theorem inspectedPages_append_page (page : attempt.showsPage = true) :
    inspectedPages (after ++ [attempt]) = inspectedPages after ++ [attempt.facts] := by
  simp [inspectedPages, page]

theorem inspectedPages_append_other (other : attempt.showsPage = false) :
    inspectedPages (after ++ [attempt]) = inspectedPages after := by
  simp [inspectedPages, other]

variable {pages : List ToolResult}

theorem inspected_fitting
    (recorded : PagesRecorded patch pages reduction)
    (baseSha : reduction.evidence.baseSha = patch.baseSha)
    (diffDigest : reduction.evidence.diffDigest = patch.diffDigest)
    (sequence : Nat)
    {page : ToolResult}
    (fits : page ∈ reviewedPages patch (pages ++ [page])) :
    let intervals := mergeIntervals
      (reduction.evidence.coveredIntervals ++ [(page.startLine, page.endLine)])
    reduction.inspected sequence page =
      { reduction with
        evidence := { reduction.evidence with
          lastInspectSequence := sequence
          totalLines := page.totalLines
          coveredIntervals := intervals
          diffReviewComplete := (nextStartLine intervals page.totalLines).isNone }
        diffReviewStale := false } := by
  obtain ⟨⟨identity, range⟩, total⟩ := mem_reviewedPages_append.mp fits
  rw [← recorded.total] at total
  rw [← baseSha, ← diffDigest] at identity
  have accepted : ¬(¬(page.baseSha = reduction.evidence.baseSha ∧
      page.diffDigest = reduction.evidence.diffDigest) ∨
      ¬(page.pageReadable = true ∧ page.totalLines > 0 ∧ 1 ≤ page.startLine ∧
        page.startLine ≤ page.endLine ∧ page.endLine ≤ page.totalLines) ∨
      ¬(reduction.evidence.totalLines = 0 ∨ reduction.evidence.totalLines = page.totalLines)) := by
    rintro (stranger | outside | other)
    · exact stranger identity
    · exact outside range
    · exact other total
  exact if_neg accepted

theorem inspected_stale
    (recorded : PagesRecorded patch pages reduction)
    (baseSha : reduction.evidence.baseSha = patch.baseSha)
    (diffDigest : reduction.evidence.diffDigest = patch.diffDigest)
    (sequence : Nat)
    {page : ToolResult}
    (stale : page ∉ reviewedPages patch (pages ++ [page])) :
    reduction.inspected sequence page =
      { reduction with
        evidence := { reduction.evidence with lastInspectSequence := sequence }
        diffReviewStale := true } := by
  have misfit := mt mem_reviewedPages_append.mpr stale
  rw [← recorded.total, PageOfDiff, ← baseSha, ← diffDigest] at misfit
  have rejected : ¬(page.baseSha = reduction.evidence.baseSha ∧
      page.diffDigest = reduction.evidence.diffDigest) ∨
      ¬(page.pageReadable = true ∧ page.totalLines > 0 ∧ 1 ≤ page.startLine ∧
        page.startLine ≤ page.endLine ∧ page.endLine ≤ page.totalLines) ∨
      ¬(reduction.evidence.totalLines = 0 ∨ reduction.evidence.totalLines = page.totalLines) := by
    by_contra accepted
    exact misfit
      ⟨⟨by_contra fun stranger => accepted (Or.inl stranger),
        by_contra fun outside => accepted (Or.inr (Or.inl outside))⟩,
        by_contra fun other => accepted (Or.inr (Or.inr other))⟩
  exact if_pos rejected

theorem noLaterStalePage_append
    {page : ToolResult} :
    NoLaterStalePage patch (pages ++ [page]) ↔ page ∈ reviewedPages patch (pages ++ [page]) := by
  simp [NoLaterStalePage]

theorem PagesRecorded.inspected
    (recorded : PagesRecorded patch pages reduction)
    (baseSha : reduction.evidence.baseSha = patch.baseSha)
    (diffDigest : reduction.evidence.diffDigest = patch.diffDigest)
    (sequence : Nat)
    (page : ToolResult) :
    PagesRecorded patch (pages ++ [page]) (reduction.inspected sequence page) := by
  by_cases fits : page ∈ reviewedPages patch (pages ++ [page])
  · obtain ⟨total, reviewed⟩ := reviewedPages_append_fitting fits
    obtain ⟨belongs, known⟩ := mem_reviewedPages_append.mp fits
    have pageRange : PageRange page.totalLines (page.startLine, page.endLine) := belongs.2.2.2
    have ranges : ∀ interval ∈
        reduction.evidence.coveredIntervals ++ [(page.startLine, page.endLine)],
        PageRange page.totalLines interval := by
      intro interval member
      rcases List.mem_append.mp member with earlier | isPage
      · have range := recorded.ranges interval earlier
        rw [recorded.total] at range
        unfold PageRange at *
        omega
      · rw [List.mem_singleton.mp isPage]
        exact pageRange
    obtain ⟨mergedRanges, ordered, covers⟩ := mergeIntervals_spec ranges
    have shown : ∀ line, CoversLine (mergeIntervals
        (reduction.evidence.coveredIntervals ++ [(page.startLine, page.endLine)])) line ↔
        ∃ other ∈ reviewedPages patch (pages ++ [page]),
          other.startLine ≤ line ∧ line ≤ other.endLine := by
      intro line
      rw [covers, coversLine_append, recorded.covers, reviewed]
      simp [CoversLine, or_and_right, exists_or]
    rw [inspected_fitting recorded baseSha diffDigest sequence fits]
    refine ⟨by simp [total], mergedRanges, shown, ?_, ?_⟩
    · have next := nextStartLineFrom_eq_none_iff 1 mergedRanges ordered
      simp only [Option.isNone_iff_eq_none, nextStartLine, next, ReviewComplete, total,
        Option.some.injEq, exists_eq_left', shown]
    · simp [noLaterStalePage_append, fits]
  · obtain ⟨total, reviewed⟩ := reviewedPages_append_stale fits
    rw [inspected_stale recorded baseSha diffDigest sequence fits]
    refine ⟨by rw [total]; exact recorded.total, recorded.ranges, ?_, ?_, ?_⟩
    · rw [reviewed]
      exact recorded.covers
    · rw [ReviewComplete, total, reviewed]
      exact recorded.complete
    · simp [noLaterStalePage_append, fits]

theorem validationRecorded_validated
    (reflects : Reflects patch after reduction)
    (sequence : Nat)
    (validation : ToolResult) :
    ValidationRecorded patch after validation (reduction.validated sequence validation) where
  sequence := by
    simp [NativeReduction.validated]
  fresh := by
    rw [← reflects.pages.complete, ← reflects.baseSha, ← reflects.diffDigest]
    simp [NativeReduction.validated]
  checks := by
    have passes : ∀ check, check ≠ "" →
        (NativeReduction.checkPassed (validation.executedChecks.filter (·.name ≠ "")) check = true ↔
          ∃ executed, (validation.executedChecks.filter (·.name = check)).getLast? =
            some executed ∧ executed.passed = true) := by
      intro check named
      rw [checkPassed_iff, filter_named _ named]
    simp only [NativeReduction.validated, List.filter_eq_nil_iff, List.mem_eraseDups]
    constructor
    · rintro ⟨executed, passed⟩ check required named
      have member : check ∈ validation.requiredChecks.filter (· ≠ "") :=
        List.mem_filter.mpr ⟨required, decide_eq_true named⟩
      have run := executed check member
      have good := passed check member
      simp only [decide_not, Bool.not_eq_true', decide_eq_false_iff_not, not_not] at run
      rw [← passes check named]
      simpa [run] using good
    · intro every
      have each : ∀ check ∈ validation.requiredChecks.filter (· ≠ ""),
          NativeReduction.checkPassed
            (validation.executedChecks.filter (·.name ≠ "")) check = true := by
        intro check member
        have named := of_decide_eq_true (List.mem_filter.mp member).2
        exact (passes check named).mpr (every check (List.mem_filter.mp member).1 named)
      refine ⟨fun check member => ?_, fun check member => ?_⟩
      · have run := mem_names_of_checkPassed (each check member)
        simpa [and_assoc] using run
      · intro failed
        simp only [Bool.and_eq_true, Bool.not_eq_true'] at failed
        exact Bool.false_ne_true (failed.2.symm.trans (each check member))
  status := rfl
  allPassed := rfl
  errorCode := rfl

theorem ValidationRecorded.of_agree
    {other : NativeReduction}
    (recorded : ValidationRecorded patch front validation reduction)
    (sequence : other.evidence.validationSequence = reduction.evidence.validationSequence)
    (stale : other.validationStale = reduction.validationStale)
    (missing : other.missingRequiredChecks = reduction.missingRequiredChecks)
    (failed : other.failedRequiredChecks = reduction.failedRequiredChecks)
    (status : other.evidence.validationStatus = reduction.evidence.validationStatus)
    (allPassed : other.evidence.allPassed = reduction.evidence.allPassed)
    (errorCode : other.evidence.validationErrorCode = reduction.evidence.validationErrorCode) :
    ValidationRecorded patch front validation other where
  sequence := sequence ▸ recorded.sequence
  fresh := by rw [stale]; exact recorded.fresh
  checks := by rw [missing, failed]; exact recorded.checks
  status := status.trans recorded.status
  allPassed := allPassed.trans recorded.allPassed
  errorCode := errorCode.trans recorded.errorCode

theorem Reflects.validation_append
    (reflects : Reflects patch after reduction)
    (other : attempt.validates = false)
    {next : NativeReduction}
    (agrees : ∀ front validation, ValidationRecorded patch front validation reduction →
      ValidationRecorded patch front validation next)
    (sequence : next.evidence.validationSequence = reduction.evidence.validationSequence) :
    ((∀ earlier ∈ after ++ [attempt], earlier.validates = false) ∧
        next.evidence.validationSequence < 0) ∨
      ∃ front validation, LastValidation (after ++ [attempt]) front validation ∧
        ValidationRecorded patch front validation next := by
  rcases reflects.validation with ⟨none, missing⟩ | ⟨front, validation, last, recorded⟩
  · refine Or.inl ⟨?_, sequence ▸ missing⟩
    intro earlier member
    rcases List.mem_append.mp member with inAfter | isLast
    · exact none earlier inAfter
    · rw [List.mem_singleton.mp isLast]
      exact other
  · exact Or.inr ⟨front, validation, last.append other, agrees front validation recorded⟩

theorem Reflects.page
    (reflects : Reflects patch after reduction)
    (page : attempt.showsPage = true)
    (sequence : Nat) :
    Reflects patch (after ++ [attempt]) (reduction.inspected sequence attempt.facts) := by
  have name : attempt.name = .inspectRepoDiff := by
    simp only [ToolAttempt.showsPage, Bool.and_eq_true, decide_eq_true_eq] at page
    exact page.1
  have pages := reflects.pages.inspected reflects.baseSha reflects.diffDigest sequence attempt.facts
  rw [← inspectedPages_append_page page] at pages
  have noPatch : attempt.patches = false := by simp [ToolAttempt.patches, name]
  have noValidation : attempt.validates = false := by simp [ToolAttempt.validates, name]
  by_cases fits : attempt.facts ∈
      reviewedPages patch (inspectedPages after ++ [attempt.facts])
  · rw [inspected_fitting reflects.pages reflects.baseSha reflects.diffDigest sequence fits]
      at pages ⊢
    exact ⟨reflects.baseSha, reflects.diffDigest, by simp [noPatch, reflects.failed], pages,
      reflects.validation_append noValidation
        (fun _ _ recorded => recorded.of_agree rfl rfl rfl rfl rfl rfl rfl) rfl⟩
  · rw [inspected_stale reflects.pages reflects.baseSha reflects.diffDigest sequence fits]
      at pages ⊢
    exact ⟨reflects.baseSha, reflects.diffDigest, by simp [noPatch, reflects.failed], pages,
      reflects.validation_append noValidation
        (fun _ _ recorded => recorded.of_agree rfl rfl rfl rfl rfl rfl rfl) rfl⟩

theorem Reflects.validated
    (reflects : Reflects patch after reduction)
    (validates : attempt.validates = true)
    (sequence : Nat) :
    Reflects patch (after ++ [attempt]) (reduction.validated sequence attempt.facts) where
  baseSha := reflects.baseSha
  diffDigest := reflects.diffDigest
  failed := by
    have name : attempt.name = .runRepoValidation := of_decide_eq_true validates
    simp [NativeReduction.validated, ToolAttempt.patches, name, reflects.failed]
  pages := by
    have name : attempt.name = .runRepoValidation := of_decide_eq_true validates
    rw [inspectedPages_append_other (by simp [ToolAttempt.showsPage, name])]
    exact ⟨reflects.pages.total, reflects.pages.ranges, reflects.pages.covers,
      reflects.pages.complete, reflects.pages.fresh⟩
  validation :=
    Or.inr ⟨after, attempt.facts, ⟨attempt, [], rfl, validates, rfl, by simp⟩,
      validationRecorded_validated reflects sequence attempt.facts⟩

theorem Reflects.failedPatch
    (reflects : Reflects patch after reduction)
    (patches : attempt.patches = true)
    (sequence : Nat)
    (status : ResultStatus) :
    Reflects patch (after ++ [attempt])
      { reduction with
        evidence := { reduction.evidence with
          lastPatchSequence := sequence
          lastPatchStatus := status
          failedPatchAfterSuccess := true } } := by
  have name : attempt.name = .applyRepoPatch ∨ attempt.name = .applyFormatReport := by
    simpa [ToolAttempt.patches] using patches
  have noPage : attempt.showsPage = false := by
    rcases name with name | name <;> simp [ToolAttempt.showsPage, name]
  have noValidation : attempt.validates = false := by
    rcases name with name | name <;> simp [ToolAttempt.validates, name]
  refine ⟨reflects.baseSha, reflects.diffDigest, by simp [patches], ?_,
    reflects.validation_append noValidation
      (fun _ _ recorded => recorded.of_agree rfl rfl rfl rfl rfl rfl rfl) rfl⟩
  rw [inspectedPages_append_other noPage]
  exact ⟨reflects.pages.total, reflects.pages.ranges, reflects.pages.covers,
    reflects.pages.complete, reflects.pages.fresh⟩

theorem Reflects.other
    (reflects : Reflects patch after reduction)
    (noPatch : attempt.patches = false)
    (noPage : attempt.showsPage = false)
    (noValidation : attempt.validates = false) :
    Reflects patch (after ++ [attempt]) reduction := by
  refine ⟨reflects.baseSha, reflects.diffDigest, by simp [noPatch, reflects.failed], ?_,
    reflects.validation_append noValidation (fun _ _ recorded => recorded) rfl⟩
  rw [inspectedPages_append_other noPage]
  exact reflects.pages

theorem Reflects.step
    (reflects : Reflects patch after reduction)
    (applied : successfulPatch patch = true)
    (kept : attempt.discards = false)
    (failed : attempt.patches = true → successfulPatch attempt.facts = false) :
    Reflects patch (after ++ [attempt]) (reduction.reduce attempt) := by
  have digest : reduction.evidence.diffDigest ≠ "" := by
    rw [reflects.diffDigest]
    simp only [successfulPatch, Bool.and_eq_true, bne_iff_ne] at applied
    exact applied.2
  by_cases patches : attempt.patches = true
  · rw [reduce_failedPatch reduction digest patches (failed patches)]
    exact reflects.failedPatch patches attempt.sequence attempt.facts.status
  · by_cases page : attempt.showsPage = true
    · rw [reduce_page reduction digest page]
      exact reflects.page page attempt.sequence
    · by_cases validates : attempt.validates = true
      · rw [reduce_validation reduction digest validates]
        exact reflects.validated validates attempt.sequence
      · rw [Bool.not_eq_true] at patches page validates
        rw [reduce_other reduction kept patches page validates]
        exact reflects.other patches page validates

end Steps

/-! ## All attempts -/

theorem LastPatch.reflects
    {attempts after : List ToolAttempt}
    (last : LastPatch attempts patch after) :
    Reflects patch after (reduceNativeRepairEvidence attempts) := by
  obtain ⟨before, attempt, rfl, patches, rfl⟩ := last.split
  have start : reduceNativeRepairEvidence (before ++ attempt :: after) =
      after.foldl NativeReduction.reduce
        (({} : NativeReduction).patched attempt.sequence attempt.facts) := by
    rw [reduceNativeRepairEvidence, List.foldl_append, List.foldl_cons,
      reduce_applied _ patches last.applied]
  rw [start]
  have run : ∀ rest : List ToolAttempt, (∀ later ∈ rest, later.discards = false) →
      (∀ later ∈ rest, later.patches = true → successfulPatch later.facts = false) →
      Reflects attempt.facts rest (rest.foldl NativeReduction.reduce
        (({} : NativeReduction).patched attempt.sequence attempt.facts)) := by
    intro rest kept failed
    induction rest using List.reverseRecOn with
    | nil =>
        exact reflects_patched last.applied {} attempt.sequence
    | append_singleton rest next ih =>
        rw [List.foldl_append]
        have earlier := ih
          (fun later member => kept later (List.mem_append_left _ member))
          (fun later member => failed later (List.mem_append_left _ member))
        exact earlier.step last.applied (kept next (by simp)) (failed next (by simp))
  exact run after last.kept last.last

theorem exists_lastPatch
    {attempts : List ToolAttempt}
    (digest : (reduceNativeRepairEvidence attempts).evidence.diffDigest ≠ "") :
    ∃ patch after, LastPatch attempts patch after := by
  induction attempts using List.reverseRecOn with
  | nil =>
      exact absurd rfl digest
  | append_singleton attempts attempt ih =>
      have step : reduceNativeRepairEvidence (attempts ++ [attempt]) =
          (reduceNativeRepairEvidence attempts).reduce attempt := by
        rw [reduceNativeRepairEvidence, List.foldl_append]
        rfl
      rw [step] at digest
      by_cases applies : attempt.patches = true ∧ successfulPatch attempt.facts = true
      · exact ⟨attempt.facts, [], ⟨attempts, attempt, rfl, applies.1, rfl⟩, applies.2,
          by simp, by simp⟩
      · have failed : attempt.patches = true → successfulPatch attempt.facts = false := by
          simpa using applies
        have kept : attempt.discards = false := by
          by_contra discards
          rw [Bool.not_eq_false] at discards
          rw [reduce_discard _ discards] at digest
          exact digest rfl
        obtain ⟨patch, after, last⟩ := ih
          (mt (fun empty => reduce_without_patch _ empty failed) digest)
        obtain ⟨before, applied, rfl, patches, facts⟩ := last.split
        refine ⟨patch, after ++ [attempt], ⟨before, applied, by simp, patches, facts⟩,
          last.applied, ?_, ?_⟩
        · intro later member
          rcases List.mem_append.mp member with earlier | isLast
          · exact last.kept later earlier
          · rw [List.mem_singleton.mp isLast]
            exact kept
        · intro later member
          rcases List.mem_append.mp member with earlier | isLast
          · exact last.last later earlier
          · rw [List.mem_singleton.mp isLast]
            exact failed

theorem decision_allowed_iff {reduction : NativeReduction} :
    reduction.decision.allowed = true ↔
      reduction.evidence.diffDigest ≠ "" ∧
        reduction.evidence.failedPatchAfterSuccess = false ∧
        (reduction.diffReviewStale = false ∧ reduction.evidence.diffReviewComplete = true) ∧
        0 ≤ reduction.evidence.validationSequence ∧
        reduction.evidence.validationErrorCode ≠ "validation_profile_missing" ∧
        reduction.validationStale = false ∧
        (reduction.missingRequiredChecks = [] ∧ reduction.failedRequiredChecks = []) ∧
        reduction.evidence.validationStatus = .ok ∧ reduction.evidence.allPassed = true := by
  rw [NativeReduction.decision]
  dsimp only
  by_cases digest : reduction.evidence.diffDigest = ""
  · simp [digest]
  rw [if_neg digest]
  by_cases failedPatch : reduction.evidence.failedPatchAfterSuccess = true
  · simp [failedPatch]
  rw [if_neg failedPatch]
  by_cases stale : reduction.diffReviewStale = true
  · simp [stale]
  rw [if_neg stale]
  by_cases incomplete : (!reduction.evidence.diffReviewComplete) = true
  · simp_all
  rw [if_neg incomplete]
  by_cases unvalidated : reduction.evidence.validationSequence < 0
  · simp [unvalidated, Int.not_le.mpr unvalidated]
  rw [if_neg unvalidated]
  by_cases profile : reduction.evidence.validationErrorCode = "validation_profile_missing"
  · simp [profile]
  rw [if_neg profile]
  by_cases staleValidation : reduction.validationStale = true
  · simp [staleValidation]
  rw [if_neg staleValidation]
  by_cases missing : reduction.missingRequiredChecks = []
  · rw [if_neg (not_not.mpr missing)]
    have sequence := Int.not_lt.mp unvalidated
    have complete : reduction.evidence.diffReviewComplete = true := by
      simpa using incomplete
    rw [Bool.not_eq_true] at failedPatch stale staleValidation
    by_cases passed : reduction.evidence.validationStatus = .ok ∧
        reduction.evidence.allPassed = true ∧ reduction.failedRequiredChecks = []
    · obtain ⟨status, allPassed, checks⟩ := passed
      rw [if_neg (by simp [status, allPassed, checks])]
      simp [digest, failedPatch, stale, complete, sequence, profile, staleValidation, missing,
        status, allPassed, checks]
    · have rejected : (reduction.evidence.validationStatus ≠ .ok ∨
          reduction.evidence.allPassed = false) ∨ reduction.failedRequiredChecks ≠ [] := by
        rw [← Bool.not_eq_true]
        tauto
      rw [if_pos (by simpa using rejected)]
      constructor
      · intro allowed
        cases allowed
      · rintro ⟨-, -, -, -, -, -, ⟨-, checks⟩, status, allPassed⟩
        exact absurd ⟨status, allPassed, checks⟩ passed
  · simp [missing]

/-! ## The decision -/

/--
A commit is allowed exactly when a patch is in place, its whole Diff has been
read, and the last validation behind the review has passed.
-/
theorem evaluate_native_commit_allowed_iff (attempts : List ToolAttempt) :
    (evaluateNativeCommit attempts).allowed = true ↔
      ∃ patch after, LastPatch attempts patch after ∧
        (∀ later ∈ after, later.patches = false) ∧
        ReviewComplete patch (inspectedPages after) ∧
        NoLaterStalePage patch (inspectedPages after) ∧
        ∃ front validation, LastValidation after front validation ∧
          ReviewComplete patch (inspectedPages front) ∧
          ValidationPassed patch validation ∧
          validation.errorCode ≠ "validation_profile_missing" := by
  rw [evaluateNativeCommit, decision_allowed_iff]
  constructor
  · rintro ⟨digest, noFailure, ⟨fresh, complete⟩, sequence, profile, freshValidation, checks,
      status, allPassed⟩
    obtain ⟨patch, after, last⟩ := exists_lastPatch digest
    have reflects := last.reflects
    rcases reflects.validation with ⟨-, missing⟩ | ⟨front, validation, lastValidation, recorded⟩
    · omega
    · obtain ⟨reviewed, identity⟩ := recorded.fresh.mp freshValidation
      refine ⟨patch, after, last, ?_, reflects.pages.complete.mp complete,
        reflects.pages.fresh.mp fresh, front, validation, lastValidation, reviewed,
        ⟨identity, recorded.status ▸ status, recorded.allPassed ▸ allPassed,
          recorded.checks.mp checks⟩, recorded.errorCode ▸ profile⟩
      rw [reflects.failed] at noFailure
      simpa using noFailure
  · rintro ⟨patch, after, last, noFailure, complete, fresh, front, validation, lastValidation,
      reviewed, passed, profile⟩
    have reflects := last.reflects
    have digest : patch.diffDigest ≠ "" := by
      have applied := last.applied
      simp only [successfulPatch, Bool.and_eq_true, bne_iff_ne] at applied
      exact applied.2
    have noFlag : after.any (·.patches) = false := by
      simpa using noFailure
    rcases reflects.validation with ⟨none, -⟩ | ⟨found, result, lastFound, recorded⟩
    · obtain ⟨attempt, back, rfl, kind, -, -⟩ := lastValidation
      have missing := none attempt (by simp)
      simp [kind] at missing
    · obtain ⟨rfl, rfl⟩ := lastFound.unique lastValidation
      exact ⟨reflects.diffDigest ▸ digest, reflects.failed.trans noFlag,
        ⟨reflects.pages.fresh.mpr fresh, reflects.pages.complete.mpr complete⟩,
        recorded.sequence, recorded.errorCode ▸ profile,
        recorded.fresh.mpr ⟨reviewed, passed.identity⟩, recorded.checks.mpr passed.checks,
        recorded.status.trans passed.statusOk, recorded.allPassed.trans passed.allPassed⟩

/-- A patch with a Diff of one line. -/
def oneLinePatch : ToolResult :=
  { status := .changed, patchApplied := true, baseSha := "b", diffDigest := "d" }

/-- Its only page. -/
def onlyPage : ToolAttempt where
  name := .inspectRepoDiff
  args := {}
  result := some
    { status := .ok, baseSha := "b", diffDigest := "d", totalLines := 1, startLine := 1,
      endLine := 1 }
  sequence := 2

/-- A validation that has passed and says that its profile is missing. -/
def withoutProfile : ToolResult :=
  { status := .ok, baseSha := "b", validatedDiffDigest := "d", allPassed := true,
    errorCode := "validation_profile_missing" }

/-- The validation as an attempt. -/
def validationWithoutProfile : ToolAttempt where
  name := .runRepoValidation
  args := {}
  result := some withoutProfile
  sequence := 3

/-- A patch, its review and a validation without a profile. -/
def unprofiledAttempts : List ToolAttempt :=
  [⟨.applyRepoPatch, {}, some oneLinePatch, 1, ""⟩, onlyPage, validationWithoutProfile]

/-- The missing profile blocks a commit for which everything else is there. -/
theorem missing_profile_blocks_commit :
    (∃ patch after, LastPatch unprofiledAttempts patch after ∧
      (∀ later ∈ after, later.patches = false) ∧
      ReviewComplete patch (inspectedPages after) ∧
      NoLaterStalePage patch (inspectedPages after) ∧
      ∃ front validation, LastValidation after front validation ∧
        ReviewComplete patch (inspectedPages front) ∧
        ValidationPassed patch validation) ∧
      (evaluateNativeCommit unprofiledAttempts).allowed = false := by
  have complete : ReviewComplete oneLinePatch [onlyPage.facts] := by
    refine ⟨1, by decide, fun line first last => ⟨onlyPage.facts, by decide, ?_⟩⟩
    exact ⟨first, last⟩
  have fresh : NoLaterStalePage oneLinePatch [onlyPage.facts] := by
    rintro page ⟨rfl⟩
    decide
  refine ⟨⟨oneLinePatch, [onlyPage, validationWithoutProfile],
    ⟨⟨[], _, rfl, by decide, rfl⟩, by decide, by decide, by decide⟩, by decide, complete,
    fresh, [onlyPage], withoutProfile,
    ⟨validationWithoutProfile, [], rfl, by decide, rfl, by simp⟩, complete,
    ⟨by decide, rfl, rfl, ?_⟩⟩, by decide⟩
  intro check member
  simp [withoutProfile] at member

end MrAgent
