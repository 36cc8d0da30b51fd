import MrAgent.DiffLines
import MrAgent.FallibleProgram
import MrAgent.NativeEvidence
import MrAgent.RepairVerifier

namespace MrAgent

/-!
# The Diff through its pages

The pages are read back by the reducer, which looks at line numbers only, and by
the verifier, which splits the text of each page again. Both agree with the
bytes of the Diff as long as the text has no other line breaks and no page ends
in an empty line.
-/

/-! ## Following the pages -/

section Pages

variable {limit : ViewLimit} {snapshot : RepoSnapshot} {maxLines : Int}

/-- The number of lines of a page. -/
def pageSize (limit : ViewLimit) (maxLines : Int) : Nat :=
  min maxLines.toNat limit.maxLines

theorem pageSize_pos
    (limit : ViewLimit)
    (positive : 0 < maxLines) :
    0 < pageSize limit maxLines := by
  have bound := limit.positive
  rw [pageSize]
  omega

/-- The page from a line on. -/
def pageAt
    (limit : ViewLimit)
    (snapshot : RepoSnapshot)
    (maxLines : Int)
    (start : Nat) : DiffPage :=
  let lines := (snapshot.textLines.drop (start - 1)).take (pageSize limit maxLines)
  let endLine := start - 1 + lines.length
  { startLine := start
    endLine
    maxLines := pageSize limit maxLines
    hasMore := endLine < snapshot.totalLines
    nextStartLine := if endLine < snapshot.totalLines then some (endLine + 1) else none
    lines }

theorem inspectRepoDiff_eq
    (limit : ViewLimit)
    (positive : 0 < maxLines)
    {start : Nat}
    (first : 1 ≤ start)
    (within : start ≤ snapshot.totalLines) :
    inspectRepoDiff limit snapshot start maxLines = .ok (pageAt limit snapshot maxLines start) := by
  have filled : splitLines (String.ofList snapshot.diffText) ≠ [] := by
    intro none
    have bytes := snapshot.textLines_eq_nil_iff.mp none
    have total := snapshot.totalLines_eq_zero_iff.mpr bytes
    omega
  have valid : ¬ ((start : Int) ≤ 0 ∨ maxLines ≤ 0) := by
    omega
  have inside : ¬ (start : Int) > snapshot.totalLines := by
    omega
  rw [inspectRepoDiff, if_neg valid]
  dsimp only
  rw [if_neg filled, if_neg inside]
  simp only [Int.toNat_natCast]
  rfl

/-- A page that is shown. -/
structure PageFacts
    (limit : ViewLimit)
    (snapshot : RepoSnapshot)
    (maxLines : Int)
    (page : DiffPage) : Prop where
  first : 1 ≤ page.startLine
  ordered : page.startLine ≤ page.endLine
  within : page.endLine ≤ snapshot.totalLines
  count : page.lines.length = page.endLine + 1 - page.startLine
  lines : ∀ line, page.startLine ≤ line → line ≤ page.endLine →
    page.lines[line - page.startLine]? = snapshot.textLines[line - 1]?
  strideStart : pageSize limit maxLines ∣ page.startLine - 1
  stride : page.endLine ≤ page.startLine - 1 + pageSize limit maxLines
  full : page.endLine = page.startLine - 1 + pageSize limit maxLines ∨
    page.endLine = snapshot.totalLines

theorem pageFacts_pageAt
    (positive : 0 < maxLines)
    (whole : snapshot.textLines.length = snapshot.totalLines)
    {start : Nat}
    (first : 1 ≤ start)
    (within : start ≤ snapshot.totalLines)
    (stride : pageSize limit maxLines ∣ start - 1) :
    PageFacts limit snapshot maxLines (pageAt limit snapshot maxLines start) := by
  have size := pageSize_pos limit positive
  have count : (pageAt limit snapshot maxLines start).lines.length =
      min (pageSize limit maxLines) (snapshot.totalLines - (start - 1)) := by
    rw [pageAt, List.length_take, List.length_drop, whole]
  have endLine : (pageAt limit snapshot maxLines start).endLine =
      start - 1 + (pageAt limit snapshot maxLines start).lines.length := rfl
  have startLine : (pageAt limit snapshot maxLines start).startLine = start := rfl
  refine ⟨first, ?_, ?_, ?_, ?_, stride, ?_, ?_⟩
  · omega
  · omega
  · omega
  · intro line early late
    rw [pageAt, List.getElem?_take_of_lt, List.getElem?_drop]
    · congr 1
      rw [startLine] at early
      dsimp only
      omega
    · dsimp only
      omega
  · omega
  · omega

theorem nextStartLine_pageAt
    {start next : Nat}
    (continued : (pageAt limit snapshot maxLines start).nextStartLine = some next) :
    next = (pageAt limit snapshot maxLines start).endLine + 1 ∧
      (pageAt limit snapshot maxLines start).endLine < snapshot.totalLines := by
  rw [pageAt] at continued
  dsimp only at continued
  split at continued
  · next more => exact ⟨(Option.some.inj continued).symm, more⟩
  · cases continued

theorem endLine_of_last
    {start : Nat}
    (ended : (pageAt limit snapshot maxLines start).nextStartLine = none) :
    snapshot.totalLines ≤ (pageAt limit snapshot maxLines start).endLine := by
  rw [pageAt] at ended
  dsimp only at ended
  split at ended
  · cases ended
  · next done => exact Nat.not_lt.mp done

variable (limit snapshot maxLines) in
theorem lines_append_drop
    (start : Nat) :
    (pageAt limit snapshot maxLines start).lines ++
        snapshot.textLines.drop (pageAt limit snapshot maxLines start).endLine =
      snapshot.textLines.drop (start - 1) := by
  have endLine : (pageAt limit snapshot maxLines start).endLine =
      start - 1 + (pageAt limit snapshot maxLines start).lines.length := rfl
  rw [endLine, ← List.drop_drop]
  exact (List.prefix_iff_eq_append.mp (List.take_prefix _ _))

theorem exists_follows
    (limit : ViewLimit)
    (positive : 0 < maxLines)
    {start : Nat}
    (first : 1 ≤ start)
    (within : start ≤ snapshot.totalLines) :
    ∃ pages, Follows limit snapshot maxLines start pages := by
  have read := inspectRepoDiff_eq limit positive first within
  cases more : (pageAt limit snapshot maxLines start).nextStartLine with
  | none =>
      exact ⟨[pageAt limit snapshot maxLines start], Follows.last read more⟩
  | some next =>
      have ⟨behind, inside⟩ := nextStartLine_pageAt more
      have count : 0 < (pageAt limit snapshot maxLines start).lines.length := by
        have size := pageSize_pos limit positive
        have total := snapshot.totalLines_le
        rw [pageAt, List.length_take, List.length_drop]
        omega
      have endLine : (pageAt limit snapshot maxLines start).endLine =
          start - 1 + (pageAt limit snapshot maxLines start).lines.length := rfl
      obtain ⟨rest, followed⟩ := exists_follows limit positive (by omega : 1 ≤ next) (by omega)
      exact ⟨_, Follows.next read more followed⟩
termination_by snapshot.totalLines - start

theorem Follows.unique
    {start : Nat}
    {pages others : List DiffPage}
    (follows : Follows limit snapshot maxLines start pages)
    (other : Follows limit snapshot maxLines start others) :
    others = pages := by
  induction follows generalizing others with
  | last read ended =>
      cases other with
      | last again _ =>
          rw [InspectAnswer.ok.inj (again.symm.trans read)]
      | next again more _ =>
          rw [InspectAnswer.ok.inj (again.symm.trans read), ended] at more
          cases more
  | next read more _ ih =>
      cases other with
      | last again ended =>
          rw [InspectAnswer.ok.inj (again.symm.trans read), more] at ended
          cases ended
      | next again moreAgain followed =>
          have same := InspectAnswer.ok.inj (again.symm.trans read)
          rw [same, more] at moreAgain
          rw [← Option.some.inj moreAgain] at followed
          rw [same, ih followed]

theorem exists_follows_one
    (limit : ViewLimit)
    (snapshot : RepoSnapshot)
    (positive : 0 < maxLines) :
    ∃ pages, Follows limit snapshot maxLines 1 pages := by
  by_cases filled : 1 ≤ snapshot.totalLines
  · exact exists_follows limit positive (Nat.le_refl 1) filled
  · have empty := snapshot.totalLines_eq_zero_iff.mp (by omega)
    have none : splitLines (String.ofList snapshot.diffText) = [] :=
      snapshot.textLines_eq_nil_iff.mpr empty
    have allowed : ¬ (((1 : Nat) : Int) ≤ 0 ∨ maxLines ≤ 0) := by omega
    have read : inspectRepoDiff limit snapshot (1 : Nat) maxLines = .ok
        { startLine := 0, endLine := 0, maxLines := min maxLines.toNat limit.maxLines
          hasMore := false, nextStartLine := Option.none, lines := [] } := by
      rw [inspectRepoDiff, if_neg allowed]
      dsimp only
      rw [if_pos none]
    exact ⟨_, Follows.last read rfl⟩

variable {page : DiffPage}

theorem mem_textLines_of_inspect
    {start : Int}
    (read : inspectRepoDiff limit snapshot start maxLines = .ok page) :
    ∀ line ∈ page.lines, line ∈ snapshot.textLines := by
  intro line member
  rw [inspectRepoDiff] at read
  dsimp only at read
  split at read
  · cases read
  · split at read
    · cases read
      cases member
    · split at read
      · cases read
      · cases read
        exact List.mem_of_mem_drop (List.mem_of_mem_take member)

variable {pages : List DiffPage}

theorem Follows.mem_textLines
    {start : Nat}
    (follows : Follows limit snapshot maxLines start pages) :
    ∀ line ∈ pages.flatMap (·.lines), line ∈ snapshot.textLines := by
  induction follows with
  | last read _ =>
      intro line member
      rw [List.flatMap_singleton] at member
      exact mem_textLines_of_inspect read line member
  | next read _ _ ih =>
      intro line member
      rw [List.flatMap_cons, List.mem_append] at member
      rcases member with here | there
      · exact mem_textLines_of_inspect read line here
      · exact ih line there

/-- What the pages from a line on show. -/
structure PagesFrom
    (limit : ViewLimit)
    (snapshot : RepoSnapshot)
    (maxLines : Int)
    (start : Nat)
    (pages : List DiffPage) : Prop where
  lines : pages.flatMap (·.lines) = snapshot.textLines.drop (start - 1)
  facts : ∀ page ∈ pages, PageFacts limit snapshot maxLines page ∧ start ≤ page.startLine
  covers : ∀ line, start ≤ line → line ≤ snapshot.totalLines →
    ∃ page ∈ pages, page.startLine ≤ line ∧ line ≤ page.endLine
  apart : pages.Pairwise fun page later => page.endLine < later.startLine

theorem Follows.pagesFrom
    (positive : 0 < maxLines)
    (whole : snapshot.textLines.length = snapshot.totalLines)
    {start : Nat}
    (follows : Follows limit snapshot maxLines start pages)
    (first : 1 ≤ start)
    (within : start ≤ snapshot.totalLines)
    (stride : pageSize limit maxLines ∣ start - 1) :
    PagesFrom limit snapshot maxLines start pages := by
  induction follows with
  | last read ended =>
      rename_i start page
      have same := InspectAnswer.ok.inj
        (read.symm.trans (inspectRepoDiff_eq limit positive first within))
      have facts := pageFacts_pageAt positive whole first within stride
      rw [same] at ended ⊢
      have isLast := endLine_of_last ended
      refine ⟨?_, ?_, ?_, List.pairwise_singleton _ _⟩
      · have joined := lines_append_drop limit snapshot maxLines start
        rw [List.drop_of_length_le (by omega), List.append_nil] at joined
        rw [List.flatMap_singleton, joined]
      · intro page member
        rw [List.mem_singleton.mp member]
        exact ⟨facts, Nat.le_refl _⟩
      · intro line early late
        exact ⟨_, List.mem_singleton_self _, early, Nat.le_trans late isLast⟩
  | next read more followed ih =>
      rename_i start next page rest
      have same := InspectAnswer.ok.inj
        (read.symm.trans (inspectRepoDiff_eq limit positive first within))
      have facts := pageFacts_pageAt positive whole first within stride
      rw [same] at more ⊢
      have ⟨behind, inside⟩ := nextStartLine_pageAt more
      have endLine := facts.full.resolve_right (by omega)
      have startLine : (pageAt limit snapshot maxLines start).startLine = start := rfl
      have further := ih (by omega) (by omega) (by
        rw [behind, endLine, startLine, Nat.add_sub_cancel]
        exact Nat.dvd_add stride (Nat.dvd_refl _))
      refine ⟨?_, ?_, ?_, ?_⟩
      · rw [List.flatMap_cons, further.lines, behind, Nat.add_sub_cancel]
        exact lines_append_drop limit snapshot maxLines start
      · intro other member
        rcases List.mem_cons.mp member with here | there
        · rw [here]
          exact ⟨facts, Nat.le_refl _⟩
        · have ⟨later, bound⟩ := further.facts other there
          have ordered := facts.ordered
          exact ⟨later, by omega⟩
      · intro line early late
        by_cases onPage : line ≤ (pageAt limit snapshot maxLines start).endLine
        · exact ⟨_, List.mem_cons_self, early, onPage⟩
        · obtain ⟨other, member, range⟩ := further.covers line (by omega) late
          exact ⟨other, List.mem_cons_of_mem _ member, range⟩
      · refine List.pairwise_cons.mpr ⟨?_, further.apart⟩
        intro other member
        have bound := (further.facts other member).2
        omega

/-- No line at the end of a page is empty. -/
def EndsFilled (limit : ViewLimit) (maxLines : Int) (lines : List (List Char)) : Prop :=
  ∀ index line, lines[index]? = some line →
    pageSize limit maxLines ∣ index + 1 ∨ index + 1 = lines.length → line ≠ []

theorem PageFacts.getLast?_eq
    (facts : PageFacts limit snapshot maxLines page) :
    page.lines.getLast? = snapshot.textLines[page.endLine - 1]? := by
  have count := facts.count
  have ordered := facts.ordered
  rw [List.getLast?_eq_getElem?, ← facts.lines page.endLine ordered (Nat.le_refl _)]
  congr 1
  omega

theorem PagesFrom.endsFilled_iff
    (positive : 0 < maxLines)
    (whole : snapshot.textLines.length = snapshot.totalLines)
    (shown : PagesFrom limit snapshot maxLines 1 pages) :
    (∀ page ∈ pages, page.lines.getLast? ≠ some []) ↔
      EndsFilled limit maxLines snapshot.textLines := by
  have size := pageSize_pos limit positive
  constructor
  · intro filled index line found ending empty
    have bound : index < snapshot.textLines.length :=
      (List.getElem?_eq_some_iff.mp found).choose
    obtain ⟨page, member, early, late⟩ := shown.covers (index + 1) (by omega) (by omega)
    have facts := (shown.facts page member).1
    have isEnd : page.endLine = index + 1 := by
      have stride := facts.stride
      have within := facts.within
      have first := facts.first
      rcases ending with multiple | last
      · obtain ⟨before, startAt⟩ := facts.strideStart
        obtain ⟨here, endAt⟩ := multiple
        have later : before < here := by
          by_contra notLater
          have product := Nat.mul_le_mul_left (pageSize limit maxLines) (Nat.not_lt.mp notLater)
          omega
        have product := Nat.mul_le_mul_left (pageSize limit maxLines) later
        rw [Nat.mul_succ] at product
        omega
      · omega
    refine filled page member ?_
    rw [facts.getLast?_eq, isEnd, Nat.add_sub_cancel, found, empty]
  · intro filled page member empty
    have facts := (shown.facts page member).1
    have first := facts.first
    have ordered := facts.ordered
    rw [facts.getLast?_eq] at empty
    refine filled (page.endLine - 1) [] empty ?_ rfl
    rw [Nat.sub_add_cancel (by omega), whole]
    rcases facts.full with full | last
    · left
      rw [full]
      exact Nat.dvd_add facts.strideStart (Nat.dvd_refl _)
    · exact Or.inr last

end Pages

/-! ## The reducer -/

/-- What has happened before the pages: a patch that gave the Diff its identity. -/
structure ReviewHistory (snapshot : RepoSnapshot) where
  before : List ToolAttempt
  patch : ToolAttempt
  patches : patch.patches = true
  applied : successfulPatch patch.facts = true
  identity : patch.facts.baseSha = snapshot.baseSha ∧
    patch.facts.diffDigest = snapshot.diffDigest
  earlier : ∀ attempt ∈ before, attempt.sequence ≤ patch.sequence

section Review

variable {limit : ViewLimit} {snapshot : RepoSnapshot} {maxLines : Int}

/-- The calls that showed the pages. -/
def pageAttempts (snapshot : RepoSnapshot) (sequence : Nat) (pages : List DiffPage) :
    List ToolAttempt :=
  pages.zipIdx.map fun entry =>
    { name := .inspectRepoDiff
      args := {}
      result := some (entry.1.result snapshot)
      sequence := sequence + 1 + entry.2 }

/-- All attempts. -/
def ReviewHistory.attempts (history : ReviewHistory snapshot) (pages : List DiffPage) :
    List ToolAttempt :=
  history.before ++ history.patch :: pageAttempts snapshot history.patch.sequence pages

theorem inspectedPages_pageAttempts
    (sequence : Nat)
    (pages : List DiffPage) :
    inspectedPages (pageAttempts snapshot sequence pages) =
      pages.map (DiffPage.result snapshot) := by
  have all : ∀ attempt ∈ pageAttempts snapshot sequence pages, attempt.showsPage = true := by
    intro attempt member
    obtain ⟨entry, _, rfl⟩ := List.mem_map.mp member
    rfl
  rw [inspectedPages, List.filter_eq_self.mpr all, pageAttempts, List.map_map]
  have firsts : pages.zipIdx.map Prod.fst = pages := List.zipIdx_map_fst 0 pages
  conv_rhs => rw [← firsts, List.map_map]
  rfl

theorem ReviewHistory.lastPatch
    (history : ReviewHistory snapshot)
    (pages : List DiffPage) :
    LastPatch (history.attempts pages) history.patch.facts
      (pageAttempts snapshot history.patch.sequence pages) := by
  refine ⟨⟨history.before, history.patch, rfl, history.patches, rfl⟩, history.applied, ?_, ?_⟩
  · intro later member
    obtain ⟨entry, _, rfl⟩ := List.mem_map.mp member
    rfl
  · intro later member patches
    obtain ⟨entry, _, rfl⟩ := List.mem_map.mp member
    cases patches

/-- The review is complete and not stale. -/
def Reviewed (attempts : List ToolAttempt) : Prop :=
  (reduceNativeRepairEvidence attempts).evidence.diffReviewComplete = true ∧
    (reduceNativeRepairEvidence attempts).diffReviewStale = false

theorem ReviewHistory.reviewed_iff
    (history : ReviewHistory snapshot)
    (pages : List DiffPage) :
    Reviewed (history.attempts pages) ↔
      ReviewComplete history.patch.facts (pages.map (DiffPage.result snapshot)) ∧
        NoLaterStalePage history.patch.facts (pages.map (DiffPage.result snapshot)) := by
  have reflects := (history.lastPatch pages).reflects.pages
  rw [inspectedPages_pageAttempts] at reflects
  exact and_congr reflects.complete reflects.fresh

variable {pages : List DiffPage}

theorem ReviewHistory.reviewed
    (history : ReviewHistory snapshot)
    (filled : 0 < snapshot.totalLines)
    (shown : PagesFrom limit snapshot maxLines 1 pages) :
    Reviewed (history.attempts pages) := by
  have ofDiff : ∀ page ∈ pages, PageOfDiff history.patch.facts (page.result snapshot) := by
    intro page member
    have facts := (shown.facts page member).1
    have first := facts.first
    have ordered := facts.ordered
    have within := facts.within
    refine ⟨⟨history.identity.1.symm, history.identity.2.symm⟩, rfl, ?_, ?_, ?_, ?_⟩
    · exact Int.natCast_pos.mpr filled
    · exact Int.ofNat_le.mpr first
    · exact Int.ofNat_le.mpr ordered
    · exact Int.ofNat_le.mpr within
  obtain ⟨firstPage, others, isFirst⟩ : ∃ first others, pages = first :: others := by
    obtain ⟨page, member, _⟩ := shown.covers 1 (Nat.le_refl _) filled
    exact List.exists_cons_of_ne_nil (List.ne_nil_of_mem member)
  have total : diffTotal history.patch.facts (pages.map (DiffPage.result snapshot)) =
      some (snapshot.totalLines : Int) := by
    have fits := ofDiff firstPage (isFirst ▸ List.mem_cons_self)
    rw [diffTotal, isFirst, List.map_cons, List.find?_cons, decide_eq_true fits]
    rfl
  have reviewed : ∀ page ∈ pages, page.result snapshot ∈
      reviewedPages history.patch.facts (pages.map (DiffPage.result snapshot)) := by
    intro page member
    rw [reviewedPages, List.mem_filter, total]
    refine ⟨List.mem_map_of_mem member, ?_⟩
    rw [decide_eq_true (ofDiff page member)]
    simp [DiffPage.result]
  rw [history.reviewed_iff]
  constructor
  · refine ⟨snapshot.totalLines, total, ?_⟩
    intro line early late
    obtain ⟨page, member, start, stop⟩ := shown.covers line.toNat (by omega) (by omega)
    refine ⟨page.result snapshot, reviewed page member, ?_, ?_⟩
    · change (page.startLine : Int) ≤ line
      omega
    · change line ≤ (page.endLine : Int)
      omega
  · intro result isLast
    obtain ⟨page, member, rfl⟩ := List.mem_map.mp (List.mem_of_getLast? isLast)
    exact reviewed page member

theorem ReviewHistory.filled_of_reviewed
    (history : ReviewHistory snapshot)
    (reviewed : Reviewed (history.attempts pages)) :
    0 < snapshot.totalLines := by
  obtain ⟨total, found, _⟩ := ((history.reviewed_iff pages).mp reviewed).1
  rw [diffTotal, Option.map_eq_some_iff] at found
  obtain ⟨result, isFound, _⟩ := found
  have accepted := List.find?_some isFound
  have ofDiff := of_decide_eq_true accepted
  obtain ⟨page, _, rfl⟩ := List.mem_map.mp (List.mem_of_find?_eq_some isFound)
  exact Int.natCast_pos.mp ofDiff.2.2.1

end Review

/-! ## The verifier -/

/-- Whether `_complete_diff` takes a page. -/
def accepts (page : ToolResult) : Bool :=
  !(!page.pageReadable || page.startLine < 1 || page.endLine < page.startLine ||
    page.diff.length ≠ page.endLine - page.startLine + 1)

/-- A line number on a page. -/
def OnPage (number : Int) (page : ToolResult) : Prop :=
  page.startLine ≤ number ∧ number ≤ page.endLine

theorem lookup_numbered
    (start number : Int)
    (lines : List String)
    (lineMap : List (Int × String)) :
    List.lookup number
        ((lines.zipIdx.map fun line => (start + (line.2 : Int), line.1)).reverse ++ lineMap) =
      (if start ≤ number then lines[(number - start).toNat]? else none).or
        (List.lookup number lineMap) := by
  induction lines generalizing start lineMap with
  | nil =>
      simp
  | cons line rest ih =>
      have shifted : (line :: rest).zipIdx.map (fun line => (start + (line.2 : Int), line.1)) =
          (start, line) :: rest.zipIdx.map fun line => (start + 1 + (line.2 : Int), line.1) := by
        rw [List.zipIdx_cons, List.zipIdx_succ, List.map_cons, List.map_map]
        congr 1
        · simp
        · refine List.map_congr_left fun entry _ => ?_
          simp only [Function.comp_apply, Prod.mk.injEq, and_true]
          omega
      rw [shifted, List.reverse_cons, List.append_assoc, List.singleton_append,
        ih, List.lookup_cons]
      by_cases here : number = start
      · have later : ¬ start + 1 ≤ number := by omega
        rw [if_neg later, here]
        simp
      · have distinct : (number == start) = false := beq_eq_false_iff_ne.mpr here
        rw [distinct]
        by_cases early : start ≤ number
        · have later : start + 1 ≤ number := by omega
          have index : (number - start).toNat = (number - (start + 1)).toNat + 1 := by omega
          rw [if_pos later, if_pos early, index, List.getElem?_cons_succ]
        · have later : ¬ start + 1 ≤ number := by omega
          rw [if_neg later, if_neg early]

theorem collectPages_spec
    {total : Int}
    {results : List ToolResult}
    (totals : ∀ page ∈ results, page.totalLines = total)
    (apart : results.Pairwise fun page later => page.endLine < later.startLine)
    (lineMap : List (Int × String))
    {known : Int}
    (consistent : known = 0 ∨ known = total) :
    ∃ found stated,
      collectPages lineMap known results = .ok (found, stated) ∧
        (stated = known ∨ stated = total) ∧
        ((∃ page ∈ results, accepts page = true) → stated = total) ∧
        (∀ number, (∀ page ∈ results, accepts page = true → ¬ OnPage number page) →
          List.lookup number found = List.lookup number lineMap) ∧
        ∀ page ∈ results, accepts page = true → ∀ number, OnPage number page →
          List.lookup number found = page.diff[(number - page.startLine).toNat]? := by
  induction results generalizing lineMap known with
  | nil =>
      refine ⟨lineMap, known, rfl, Or.inl rfl, ?_, fun _ _ => rfl, ?_⟩
      · rintro ⟨page, member, _⟩
        exact absurd member List.not_mem_nil
      · exact fun page member => absurd member List.not_mem_nil
  | cons page rest ih =>
      have ⟨behind, apartRest⟩ := List.pairwise_cons.mp apart
      have totalsRest : ∀ other ∈ rest, other.totalLines = total := fun other member =>
        totals other (List.mem_cons_of_mem _ member)
      by_cases accepted : accepts page = true
      · have taken : ¬ (!page.pageReadable || page.startLine < 1 ||
            page.endLine < page.startLine ||
            page.diff.length ≠ page.endLine - page.startLine + 1) = true := by
          rw [accepts, Bool.not_eq_true'] at accepted
          rw [accepted]
          exact Bool.false_ne_true
        have known' : ¬ (known ≠ 0 && known ≠ page.totalLines) = true := by
          rw [totals page List.mem_cons_self]
          rcases consistent with rfl | rfl <;> simp
        obtain ⟨found, stated, collected, states, _, others, eachPage⟩ :=
          ih totalsRest apartRest
            ((page.diff.zipIdx.map fun line =>
              (page.startLine + (line.2 : Int), line.1)).reverse ++ lineMap)
            (Or.inr (totals page List.mem_cons_self) :
              page.totalLines = 0 ∨ page.totalLines = total)
        have count : (page.diff.length : Int) = page.endLine - page.startLine + 1 := by
          simp only [Bool.or_eq_true, decide_eq_true_eq, not_or, ne_eq, Decidable.not_not] at taken
          exact taken.2
        have states' : stated = total := by
          rcases states with same | same
          · rw [same, totals page List.mem_cons_self]
          · exact same
        refine ⟨found, stated, ?_, Or.inr states', fun _ => states', ?_, ?_⟩
        · rw [collectPages, if_neg taken, if_neg known']
          exact collected
        · intro number nowhere
          rw [others number fun other member => nowhere other (List.mem_cons_of_mem _ member),
            lookup_numbered]
          have off := nowhere page List.mem_cons_self accepted
          split
          · next early =>
              have beyond : page.diff.length ≤ (number - page.startLine).toNat := by
                rw [OnPage] at off
                omega
              rw [List.getElem?_eq_none beyond, Option.none_or]
          · rw [Option.none_or]
        · intro other member takes number onPage
          rcases List.mem_cons.mp member with rfl | inRest
          · have nowhere : ∀ later ∈ rest, accepts later = true → ¬ OnPage number later := by
              intro later inRest _ onLater
              have gap := behind later inRest
              rw [OnPage] at onPage onLater
              omega
            have inside : (number - other.startLine).toNat < other.diff.length := by
              rw [OnPage] at onPage
              omega
            rw [others number nowhere, lookup_numbered, if_pos onPage.1,
              List.getElem?_eq_getElem inside, Option.some_or]
          · exact eachPage other inRest takes number onPage
      · have skipped : (!page.pageReadable || page.startLine < 1 ||
            page.endLine < page.startLine ||
            page.diff.length ≠ page.endLine - page.startLine + 1) = true := by
          rw [accepts, Bool.not_eq_true', Bool.not_eq_false] at accepted
          exact accepted
        obtain ⟨found, stated, collected, states, someTotal, others, eachPage⟩ :=
          ih totalsRest apartRest lineMap consistent
        refine ⟨found, stated, ?_, states, ?_, ?_, ?_⟩
        · rw [collectPages, if_pos skipped]
          exact collected
        · rintro ⟨other, member, takes⟩
          rcases List.mem_cons.mp member with rfl | inRest
          · exact absurd takes accepted
          · exact someTotal ⟨other, inRest, takes⟩
        · intro number nowhere
          exact others number fun other member => nowhere other (List.mem_cons_of_mem _ member)
        · intro other member takes number onPage
          rcases List.mem_cons.mp member with rfl | inRest
          · exact absurd takes accepted
          · exact eachPage other inRest takes number onPage

section Verifier

variable {limit : ViewLimit} {snapshot : RepoSnapshot} {maxLines : Int}

variable {page : DiffPage}

theorem diff_result
    (plain : ∀ line ∈ page.lines, unbroken line = true) :
    (page.result snapshot).diff =
      (if page.lines.getLast? = some [] then page.lines.dropLast else page.lines).map
        String.ofList := by
  rw [DiffPage.result, splitLines, String.toList_ofList, DiffPage.diff,
    splitLinesFrom_intercalate plain]

theorem accepts_result_iff
    (facts : PageFacts limit snapshot maxLines page)
    (plain : ∀ line ∈ page.lines, unbroken line = true) :
    accepts (page.result snapshot) = true ↔ page.lines.getLast? ≠ some [] := by
  have first := facts.first
  have ordered := facts.ordered
  have count := facts.count
  have startLine : (page.result snapshot).startLine = page.startLine := rfl
  have endLine : (page.result snapshot).endLine = page.endLine := rfl
  have readable : (page.result snapshot).pageReadable = true := rfl
  have bounds : ¬ (page.startLine : Int) < 1 ∧ ¬ (page.endLine : Int) < page.startLine := by
    omega
  rw [accepts, readable, startLine, endLine, diff_result plain]
  simp only [Bool.not_true, bounds.1, bounds.2, decide_false, Bool.or_self, Bool.false_or,
    Bool.not_eq_true', decide_eq_false_iff_not, ne_eq, Decidable.not_not, List.length_map]
  by_cases empty : page.lines.getLast? = some []
  · rw [if_pos empty, List.length_dropLast]
    simp only [empty, not_true_eq_false, iff_false]
    omega
  · rw [if_neg empty]
    simp only [empty, not_false_eq_true, iff_true]
    omega

theorem ReviewHistory.verifierPages
    (history : ReviewHistory snapshot)
    (pages : List DiffPage) :
    ((history.attempts pages).filter fun attempt =>
      attempt.sequence > (history.patch.sequence : Int) && attempt.name = .inspectRepoDiff &&
        attempt.facts.status = .ok && attempt.facts.baseSha = snapshot.baseSha &&
        attempt.facts.diffDigest = snapshot.diffDigest).map (·.facts) =
      pages.map (DiffPage.result snapshot) := by
  have early : ∀ attempt ∈ history.before,
      ¬ ((attempt.sequence : Int) > history.patch.sequence) := by
    intro attempt member
    have bound := history.earlier attempt member
    omega
  have shown : ∀ attempt ∈ pageAttempts snapshot history.patch.sequence pages,
      (attempt.sequence : Int) > history.patch.sequence ∧ attempt.name = .inspectRepoDiff ∧
        attempt.facts.status = .ok ∧ attempt.facts.baseSha = snapshot.baseSha ∧
        attempt.facts.diffDigest = snapshot.diffDigest := by
    intro attempt member
    obtain ⟨entry, _, rfl⟩ := List.mem_map.mp member
    refine ⟨?_, rfl, rfl, rfl, rfl⟩
    change ((history.patch.sequence + 1 + entry.2 : Nat) : Int) > _
    omega
  have none : history.before.filter (fun attempt =>
      attempt.sequence > (history.patch.sequence : Int) && attempt.name = .inspectRepoDiff &&
        attempt.facts.status = .ok && attempt.facts.baseSha = snapshot.baseSha &&
        attempt.facts.diffDigest = snapshot.diffDigest) = [] := by
    rw [List.filter_eq_nil_iff]
    intro attempt member
    simp [early attempt member]
  have all : (pageAttempts snapshot history.patch.sequence pages).filter (fun attempt =>
      attempt.sequence > (history.patch.sequence : Int) && attempt.name = .inspectRepoDiff &&
        attempt.facts.status = .ok && attempt.facts.baseSha = snapshot.baseSha &&
        attempt.facts.diffDigest = snapshot.diffDigest) =
      pageAttempts snapshot history.patch.sequence pages := by
    rw [List.filter_eq_self]
    intro attempt member
    have ⟨late, name, status, base, digest⟩ := shown attempt member
    simp [late, name, status, base, digest]
  rw [ReviewHistory.attempts, List.filter_append, none, List.nil_append,
    List.filter_cons_of_neg (by simp), all]
  rw [← inspectedPages_pageAttempts history.patch.sequence, inspectedPages,
    List.filter_eq_self.mpr]
  intro attempt member
  obtain ⟨entry, _, rfl⟩ := List.mem_map.mp member
  rfl

/-- The joined text is within the budget of the verifier. -/
def FitsVerifier (lines : List (List Char)) : Prop :=
  (lines.map (·.length)).sum + (lines.length - 1) ≤ maxVerifierDiffChars

instance (lines : List (List Char)) : Decidable (FitsVerifier lines) :=
  inferInstanceAs (Decidable (_ ≤ _))

theorem length_map_ofList
    (lines : List (List Char)) :
    (lines.map String.ofList).map (·.length) = lines.map (·.length) := by
  rw [List.map_map]
  exact List.map_congr_left fun line _ => String.length_ofList

theorem range_numbers (total : Nat) :
    ((List.range total).map fun offset => (offset : Int) + 1) =
      (List.range total).map fun offset : Nat => (offset : Int) + 1 := by
  simp [List.map_eq_flatMap, List.flatMap_assoc]

variable {found : List (Int × String)}

theorem mapM_lookup
    {lines : List String}
    (each : ∀ (index : Nat) (bound : index < lines.length),
      List.lookup ((index : Int) + 1) found = some lines[index]) :
    ((List.range lines.length).map fun offset : Nat => (offset : Int) + 1).mapM
      (List.lookup · found) = some lines := by
  rw [FallibleProgram.mapM_eq_some_iff, List.forall₂_iff_get]
  refine ⟨by rw [List.length_map, List.length_range], ?_⟩
  intro index bound inside
  rw [List.get_eq_getElem, List.get_eq_getElem, List.getElem_map, List.getElem_range]
  exact each index inside

theorem mapM_lookup_eq_none
    {total : Nat}
    {number : Int}
    (first : 1 ≤ number)
    (within : number ≤ total)
    (missing : List.lookup number found = none) :
    ((List.range total).map fun offset : Nat => (offset : Int) + 1).mapM
      (List.lookup · found) = none := by
  by_contra some_
  obtain ⟨lines, read⟩ := Option.ne_none_iff_exists'.mp some_
  have pairs := (List.forall₂_iff_get.mp (FallibleProgram.mapM_eq_some_iff.mp read))
  have bound : (number - 1).toNat <
      ((List.range total).map fun offset : Nat => (offset : Int) + 1).length := by
    rw [List.length_map, List.length_range]
    omega
  have here := pairs.2 (number - 1).toNat bound (pairs.1 ▸ bound)
  rw [List.get_eq_getElem, List.getElem_map, List.getElem_range] at here
  have same : (((number - 1).toNat : Nat) : Int) + 1 = number := by omega
  rw [same, missing] at here
  cases here

theorem fits_of_completeDiff
    {ledger : ExecutionLedger}
    {baseSha diffDigest : String}
    {sequence : Int}
    {lines : List (List Char)}
    (complete : completeDiff ledger baseSha diffDigest sequence =
      .ok (lines.map String.ofList)) :
    FitsVerifier lines := by
  rw [completeDiff] at complete
  dsimp only at complete
  split at complete
  · cases complete
  · split at complete
    · cases complete
    · split at complete
      · cases complete
      · next fits =>
          have same := Except.ok.inj complete
          rw [same, length_map_ofList, List.length_map] at fits
          exact Nat.not_lt.mp fits

variable {pages : List DiffPage}

theorem ReviewHistory.completeDiff_eq_iff
    (history : ReviewHistory snapshot)
    (filled : 0 < snapshot.totalLines)
    (whole : snapshot.textLines.length = snapshot.totalLines)
    (shown : PagesFrom limit snapshot maxLines 1 pages) :
    completeDiff { toolAttempts := history.attempts pages } snapshot.baseSha snapshot.diffDigest
        history.patch.sequence = .ok (snapshot.textLines.map String.ofList) ↔
      (∀ page ∈ pages, page.lines.getLast? ≠ some []) ∧ FitsVerifier snapshot.textLines := by
  have plain : ∀ page ∈ pages, ∀ line ∈ page.lines, unbroken line = true := by
    intro page member line inPage
    have inText : line ∈ pages.flatMap (·.lines) := List.mem_flatMap.mpr ⟨page, member, inPage⟩
    rw [shown.lines] at inText
    exact unbroken_of_mem_splitLines (List.mem_of_mem_drop inText)
  have totals : ∀ result ∈ pages.map (DiffPage.result snapshot),
      result.totalLines = snapshot.totalLines := by
    intro result member
    obtain ⟨page, _, rfl⟩ := List.mem_map.mp member
    rfl
  have apart : (pages.map (DiffPage.result snapshot)).Pairwise fun page later =>
      page.endLine < later.startLine :=
    List.pairwise_map.mpr (shown.apart.imp fun gap => Int.ofNat_lt.mpr gap)
  obtain ⟨found, stated, collected, states, someTotal, others, eachPage⟩ :=
    collectPages_spec totals apart [] (Or.inl rfl)
  have attempts := history.verifierPages pages
  constructor
  · intro complete
    refine ⟨?_, fits_of_completeDiff complete⟩
    intro page member empty
    rw [completeDiff] at complete
    dsimp only at complete
    rw [attempts, collected] at complete
    dsimp only at complete
    rw [range_numbers] at complete
    have facts := (shown.facts page member).1
    have first := facts.first
    have ordered := facts.ordered
    have within := facts.within
    have rejected : accepts (page.result snapshot) ≠ true := fun taken =>
      (accepts_result_iff facts (plain page member)).mp taken empty
    -- No other page has the last line of this one.
    have nowhere : ∀ result ∈ pages.map (DiffPage.result snapshot), accepts result = true →
        ¬ OnPage page.endLine result := by
      intro result inResults taken onPage
      obtain ⟨other, inPages, rfl⟩ := List.mem_map.mp inResults
      have range : other.startLine ≤ page.endLine ∧ page.endLine ≤ other.endLine :=
        ⟨Int.ofNat_le.mp onPage.1, Int.ofNat_le.mp onPage.2⟩
      obtain ⟨front, back, split⟩ := List.append_of_mem member
      have gaps := shown.apart
      rw [split, List.pairwise_append, List.pairwise_cons] at gaps
      rw [split] at inPages
      rcases List.mem_append.mp inPages with inFront | inBack
      · have gap := gaps.2.2 other inFront page List.mem_cons_self
        omega
      · rcases List.mem_cons.mp inBack with same | inBack
        · exact rejected (same ▸ taken)
        · have gap := gaps.2.1.1 other inBack
          omega
    have missing := others page.endLine nowhere
    have none : (if stated ≤ 0 then none
        else ((List.range stated.toNat).map fun offset : Nat => (offset : Int) + 1).mapM
          (List.lookup · found)) = none := by
      split
      · rfl
      · next positive =>
          have isTotal : stated = snapshot.totalLines := states.resolve_left (by omega)
          have firstLine : (1 : Int) ≤ page.endLine := by omega
          have lastLine : (page.endLine : Int) ≤ (stated.toNat : Nat) := by omega
          exact mapM_lookup_eq_none firstLine lastLine missing
    rw [none] at complete
    cases complete
  · rintro ⟨filledEnds, fits⟩
    have taken : ∀ page ∈ pages, accepts (page.result snapshot) = true := fun page member =>
      (accepts_result_iff (shown.facts page member).1 (plain page member)).mpr
        (filledEnds page member)
    have isTotal : stated = snapshot.totalLines := by
      obtain ⟨page, member, _⟩ := shown.covers 1 (Nat.le_refl _) filled
      exact someTotal ⟨_, List.mem_map_of_mem member, taken page member⟩
    have read : ((List.range stated.toNat).map fun offset : Nat => (offset : Int) + 1).mapM
        (List.lookup · found) = some (snapshot.textLines.map String.ofList) := by
      have count : stated.toNat = (snapshot.textLines.map String.ofList).length := by
        rw [List.length_map, isTotal, whole]
        rfl
      rw [count]
      refine mapM_lookup fun index bound => ?_
      rw [List.length_map] at bound
      obtain ⟨page, member, early, late⟩ := shown.covers (index + 1) (by omega) (by omega)
      have facts := (shown.facts page member).1
      have onPage : OnPage ((index : Int) + 1) (page.result snapshot) := by
        refine ⟨?_, ?_⟩
        · change (page.startLine : Int) ≤ _
          omega
        · change _ ≤ (page.endLine : Int)
          omega
      have offset : ((index : Int) + 1 - (page.result snapshot).startLine).toNat =
          index + 1 - page.startLine := by
        change ((index : Int) + 1 - (page.startLine : Int)).toNat = _
        omega
      rw [eachPage _ (List.mem_map_of_mem member) (taken page member) _ onPage, offset,
        diff_result (plain page member), if_neg (filledEnds page member), List.getElem?_map,
        facts.lines (index + 1) early late, Nat.add_sub_cancel, List.getElem?_eq_getElem bound,
        List.getElem_map]
      rfl
    have positive : ¬ stated ≤ 0 := by omega
    rw [completeDiff]
    dsimp only
    rw [attempts, collected]
    dsimp only
    rw [range_numbers, if_neg positive, read]
    dsimp only
    rw [length_map_ofList, List.length_map, if_neg (Nat.not_lt.mpr fits)]

/-! ## The round trip -/

/-- Each line is shown once, the review is complete, and the verifier rebuilds the lines. -/
structure RoundTrip
    (history : ReviewHistory snapshot)
    (pages : List DiffPage) : Prop where
  once : pages.flatMap (·.lines) = snapshot.diffLines
  reviewed : Reviewed (history.attempts pages)
  rebuilt : completeDiff { toolAttempts := history.attempts pages } snapshot.baseSha
    snapshot.diffDigest history.patch.sequence = .ok (snapshot.diffLines.map String.ofList)

/-- What the round trip needs of the Diff. -/
structure Pageable (limit : ViewLimit) (maxLines : Int) (snapshot : RepoSnapshot) : Prop where
  notEmpty : snapshot.diffBytes ≠ []
  plain : ∀ c ∈ snapshot.diffText, isForeignBreak c = false
  ends : EndsFilled limit maxLines snapshot.diffLines
  fits : FitsVerifier snapshot.diffLines

theorem Follows.shown
    (positive : 0 < maxLines)
    (follows : Follows limit snapshot maxLines 1 pages)
    (filled : 0 < snapshot.totalLines)
    (plain : ∀ c ∈ snapshot.diffText, isForeignBreak c = false) :
    snapshot.textLines = snapshot.diffLines ∧
      snapshot.textLines.length = snapshot.totalLines ∧
      PagesFrom limit snapshot maxLines 1 pages := by
  have same := snapshot.textLines_eq_diffLines plain
  have whole : snapshot.textLines.length = snapshot.totalLines := by
    rw [same, snapshot.length_diffLines]
  exact ⟨same, whole, follows.pagesFrom positive whole (Nat.le_refl 1) filled (Nat.dvd_zero _)⟩

theorem RoundTrip.pageable
    (positive : 0 < maxLines)
    {history : ReviewHistory snapshot}
    (trip : RoundTrip history pages)
    (follows : Follows limit snapshot maxLines 1 pages) :
    Pageable limit maxLines snapshot := by
  have filled := history.filled_of_reviewed trip.reviewed
  have plain := snapshot.plain_of_subset fun line member =>
    follows.mem_textLines line (trip.once ▸ member)
  obtain ⟨same, whole, paged⟩ := follows.shown positive filled plain
  have complete := trip.rebuilt
  rw [← same] at complete
  have ⟨ends, fits⟩ := (history.completeDiff_eq_iff filled whole paged).mp complete
  refine ⟨?_, plain, ?_, same ▸ fits⟩
  · intro empty
    rw [snapshot.totalLines_eq_zero_iff.mpr empty] at filled
    cases filled
  · exact same ▸ (paged.endsFilled_iff positive whole).mp ends

theorem Pageable.roundTrip
    (positive : 0 < maxLines)
    (pageable : Pageable limit maxLines snapshot)
    (history : ReviewHistory snapshot)
    (follows : Follows limit snapshot maxLines 1 pages) :
    RoundTrip history pages := by
  have filled : 0 < snapshot.totalLines := Nat.pos_of_ne_zero fun none =>
    pageable.notEmpty (snapshot.totalLines_eq_zero_iff.mp none)
  obtain ⟨same, whole, paged⟩ := follows.shown positive filled pageable.plain
  have ends := pageable.ends
  have fits := pageable.fits
  rw [← same] at ends fits
  refine ⟨?_, history.reviewed filled paged, ?_⟩
  · rw [paged.lines, same]
    rfl
  · rw [← same]
    exact (history.completeDiff_eq_iff filled whole paged).mpr
      ⟨(paged.endsFilled_iff positive whole).mpr ends, fits⟩

/-- The pages end, in one way. They make the round trip exactly when the Diff is not empty, has no
foreign line break or page with an empty end, and is within the budget. -/
theorem diff_paging_round_trip_iff
    (limit : ViewLimit)
    (snapshot : RepoSnapshot)
    (history : ReviewHistory snapshot)
    (maxLines : Int)
    (positive : 0 < maxLines) :
    ∃ pages, Follows limit snapshot maxLines 1 pages ∧
      (∀ others, Follows limit snapshot maxLines 1 others → others = pages) ∧
      (RoundTrip history pages ↔ Pageable limit maxLines snapshot) := by
  obtain ⟨pages, follows⟩ := exists_follows_one limit snapshot positive
  refine ⟨pages, follows, fun others other => follows.unique other, ?_, ?_⟩
  · exact fun trip => trip.pageable positive follows
  · exact fun pageable => pageable.roundTrip positive history follows

end Verifier

namespace PagingSample

/-- The default of `DIFF_VIEW_MAX_LINES`. -/
def limit : ViewLimit where
  maxLines := 600
  positive := by decide

/-- A Diff with the given text. -/
def snapshot (text : String) : RepoSnapshot where
  baseSha := "b1"
  diffBytes := text.toUTF8.toList
  diffDigest := "d1"

/-- A first patch has made the Diff. -/
def history (text : String) : ReviewHistory (snapshot text) where
  before := []
  patch :=
    { name := .applyRepoPatch
      args := {}
      result := some
        { status := .changed, patchApplied := true, baseSha := "b1", diffDigest := "d1" }
      sequence := 4 }
  patches := by decide
  applied := by decide
  identity := ⟨rfl, rfl⟩
  earlier := fun _ member => absurd member List.not_mem_nil

/-- A new text file. -/
def textDiff : String :=
  "diff --git a/a b/a\nnew file mode 100644\n--- /dev/null\n+++ b/a\n@@ -0,0 +1 @@\n+x\n"

/-- A new binary file; Git closes a binary patch with an empty line. -/
def binaryDiff : String :=
  "diff --git a/b b/b\nnew file mode 100644\nindex 0000000000000000000000000000000000000000" ++
    "..f76dd238ade08917e6712764a16a22005a50573d\nGIT binary patch\n" ++
    "literal 1\nIcmZPo000310RR91\n\nliteral 0\nHcmV?d00001\n\n"

theorem pageable_textDiff : Pageable limit 100 (snapshot textDiff) where
  notEmpty := by decide +kernel
  plain := by decide +kernel
  ends := by
    intro index line found _
    have filled : ∀ line ∈ (snapshot textDiff).diffLines, line ≠ [] := by decide +kernel
    exact filled line (List.mem_of_getElem? found)
  fits := by decide +kernel

end PagingSample

theorem text_diff_makes_the_round_trip :
    (0 : Int) < 100 ∧
      ∃ pages, Follows PagingSample.limit (PagingSample.snapshot PagingSample.textDiff) 100 1
          pages ∧ RoundTrip (PagingSample.history PagingSample.textDiff) pages := by
  refine ⟨by decide, ?_⟩
  obtain ⟨pages, follows, _, roundTrip⟩ := diff_paging_round_trip_iff PagingSample.limit _
    (PagingSample.history PagingSample.textDiff) 100 (by decide)
  exact ⟨pages, follows, roundTrip.mpr PagingSample.pageable_textDiff⟩

/-- A Diff that ends in a binary file is never rebuilt. -/
theorem binary_diff_is_not_rebuilt :
    ¬ ∃ pages, Follows PagingSample.limit (PagingSample.snapshot PagingSample.binaryDiff) 600 1
        pages ∧ RoundTrip (PagingSample.history PagingSample.binaryDiff) pages := by
  rintro ⟨pages, follows, trip⟩
  have pageable := trip.pageable (by decide) follows
  have last : (PagingSample.snapshot PagingSample.binaryDiff).diffLines[9]? = some [] := by
    decide +kernel
  have isEnd : pageSize PagingSample.limit 600 ∣ 9 + 1 ∨
      9 + 1 = (PagingSample.snapshot PagingSample.binaryDiff).diffLines.length := by
    decide +kernel
  exact pageable.ends 9 [] last isEnd rfl

end MrAgent
