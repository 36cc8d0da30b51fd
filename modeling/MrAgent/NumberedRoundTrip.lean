import MrAgent.NumberedParse

namespace MrAgent

/-!
# Numbered hunks and back

The lines of the new side are read back from the text that the converter writes
exactly when they stay whole, none of them looks like the marker for a missing
newline, and no line before a stripped place ends with white space.
-/

/-- The context and added lines with their numbers in the new file, without their signs. -/
def newSidePairs : Nat → List HunkLine → HunkBlock
  | _, [] => []
  | number, entry :: rest =>
    match entry.kind with
    | .deletion => newSidePairs number rest
    | _ => (number, entry.content.text) :: newSidePairs (number + 1) rest

/-- The blocks of the hunks that have a new side. -/
def expectedBlocks (hunks : List UnifiedHunk) : List HunkBlock :=
  (hunks.map fun hunk => newSidePairs hunk.start2 hunk.body).filter (· ≠ [])

variable (number : Nat)

theorem newSidePairs_eq
    (body : List HunkLine) :
    newSidePairs number body = (newFileLines number body).map pairOf := by
  induction body generalizing number with
  | nil => rfl
  | cons entry rest ih =>
      rw [newSidePairs, newFileLines]
      cases entry.kind with
      | deletion => exact ih number
      | context => exact congrArg (List.cons _) (ih (number + 1))
      | addition => exact congrArg (List.cons _) (ih (number + 1))

theorem onNewSide_of_mem_newFileLines
    {number : Nat}
    {body : List HunkLine}
    {entry : Int × List Char}
    (member : entry ∈ newFileLines number body) :
    OnNewSide entry := by
  induction body generalizing number with
  | nil => cases member
  | cons line rest ih =>
      rw [newFileLines] at member
      cases kind : line.kind with
      | deletion =>
          rw [kind] at member
          exact ih member
      | context =>
          rw [kind] at member
          rcases List.mem_cons.mp member with rfl | later
          · refine ⟨number, ' ', line.content.text, ?_, Or.inl rfl⟩
            rw [HunkLine.line, kind]
            rfl
          · exact ih later
      | addition =>
          rw [kind] at member
          rcases List.mem_cons.mp member with rfl | later
          · refine ⟨number, '+', line.content.text, ?_, Or.inr rfl⟩
            rw [HunkLine.line, kind]
            rfl
          · exact ih later

theorem map_snd_newFileLines
    (body : List HunkLine) :
    (newFileLines number body).map (·.2) =
      (body.filter (·.kind ≠ .deletion)).map (·.line) := by
  induction body generalizing number with
  | nil => rfl
  | cons entry rest ih =>
      rw [newFileLines, List.filter_cons]
      cases kind : entry.kind with
      | deletion => exact ih number
      | context => exact congrArg (List.cons _) (ih (number + 1))
      | addition => exact congrArg (List.cons _) (ih (number + 1))

theorem unbroken_of_isPrefix
    {line start : List Char}
    (isPrefix : start <+: line)
    (whole : unbroken line = true) :
    unbroken start = true := by
  rw [unbroken, List.all_eq_true] at whole ⊢
  exact fun c member => whole c (isPrefix.subset member)

theorem unbroken_of_mem_stripLast
    {lines : List (List Char)}
    (whole : ∀ line ∈ lines, unbroken line = true) :
    ∀ line ∈ stripLast lines, unbroken line = true := by
  intro line member
  rcases List.mem_append.mp member with front | last
  · exact whole line (List.mem_of_mem_dropLast front)
  · obtain ⟨source, isLast, rfl⟩ := Option.map_eq_some_iff.mp (Option.mem_toList.mp last)
    exact unbroken_of_isPrefix (rstrip_isPrefix source) (whole source (List.mem_of_getLast? isLast))

namespace UnifiedHunk

/-- A line is deleted. -/
def Deletes (hunk : UnifiedHunk) : Prop :=
  ∃ entry ∈ hunk.body, entry.kind = .deletion

/-- The new side does not end with white space. -/
def EndsClean (hunk : UnifiedHunk) : Prop :=
  ∀ line ∈ hunk.newSide.getLast?, rstrip line = line

variable {hunk : UnifiedHunk}

theorem oldLines_numbered_eq_nil_iff :
    hunk.numbered.oldLines = [] ↔ ¬ hunk.Deletes := by
  have any : hunk.body.any (·.kind = .deletion) = true ↔ hunk.Deletes := by
    rw [List.any_eq_true, Deletes]
    simp
  rw [numbered]
  by_cases deletes : hunk.Deletes
  · obtain ⟨entry, member, kind⟩ := deletes
    have side : entry.line ∈ hunk.oldSide :=
      List.mem_map_of_mem (List.mem_filter.mpr ⟨member, by simp [kind]⟩)
    rw [if_pos (any.mpr ⟨entry, member, kind⟩)]
    exact iff_of_false (List.ne_nil_of_mem side) (not_not.mpr ⟨entry, member, kind⟩)
  · rw [if_neg (any.not.mpr deletes)]
    exact iff_of_true rfl deletes

theorem wellWritten
    (env : DigitEnv)
    (plain : ∀ line ∈ hunk.ownLines, unbroken line = true) :
    WellWritten env hunk.numbered where
  headed := startsHeader_header hunk
  newSide := fun _ member => onNewSide_of_mem_newFileLines member
  oldSide := by
    intro line member
    rw [numbered] at member
    dsimp only at member
    split at member
    · obtain ⟨entry, inside, rfl⟩ := List.mem_map.mp member
      have old := (List.mem_filter.mp inside).2
      rw [HunkLine.line]
      cases kind : entry.kind with
      | context => exact fun c found => by cases found; rfl
      | deletion => exact fun c found => by cases found; rfl
      | addition => simp [kind] at old
    · cases member
  filled := by
    rintro ⟨new, old⟩
    have noNew := map_snd_newFileLines hunk.start2 hunk.body
    rw [show newFileLines hunk.start2 hunk.body = [] from new, List.map_nil] at noNew
    obtain ⟨entry, member, changed⟩ := hunk.changes
    have isDeletion : entry.kind = .deletion := by
      by_contra other
      have inside : entry.line ∈ (hunk.body.filter (·.kind ≠ .deletion)).map (·.line) :=
        List.mem_map_of_mem (List.mem_filter.mpr ⟨member, decide_eq_true other⟩)
      rw [← noNew] at inside
      cases inside
    exact oldLines_numbered_eq_nil_iff.mp old ⟨entry, member, isDeletion⟩
  whole := by
    have header : unbroken hunk.header = true := plain _ List.mem_cons_self
    have body : ∀ entry ∈ hunk.body, unbroken entry.line = true := fun entry inside =>
      plain _ (List.mem_cons_of_mem _ (List.mem_map_of_mem inside))
    have head : ∀ line ∈ hunk.numbered.headLines, unbroken line = true := by
      intro line member
      rcases List.mem_cons.mp member with rfl | member
      · rfl
      · rcases List.mem_cons.mp member with rfl | member
        · exact unbroken_of_isPrefix (rstrip_isPrefix _) header
        · rcases List.mem_cons.mp member with rfl | member
          · decide
          · obtain ⟨entry, inside, rfl⟩ := List.mem_map.mp member
            have snd : entry.2 ∈ (hunk.body.filter (·.kind ≠ .deletion)).map (·.line) := by
              rw [← map_snd_newFileLines hunk.start2]
              exact List.mem_map_of_mem inside
            obtain ⟨source, isSource, same⟩ := List.mem_map.mp snd
            obtain ⟨number, sign, content, rfl, _⟩ := onNewSide_of_mem_newFileLines inside
            have text := body source (List.mem_filter.mp isSource).1
            rw [same] at text
            rw [numberedLine, unbroken_append, intText_ofNat, unbroken_digits, unbroken_cons, text]
            decide
    rw [NumberedHunk.lines]
    split
    · exact head
    · intro line member
      rcases List.mem_append.mp member with new | old
      · exact unbroken_of_mem_stripLast head line new
      · rcases List.mem_cons.mp old with rfl | old
        · decide
        · rw [numbered] at old
          dsimp only at old
          split at old
          · obtain ⟨entry, inside, rfl⟩ := List.mem_map.mp old
            exact body entry (List.mem_filter.mp inside).1
          · cases old

end UnifiedHunk

/-! ## Which lines are read back -/

theorem length_strippedPairs
    (entries : List (Int × List Char)) :
    (strippedPairs entries).length ≤ (entries.map pairOf).length := by
  induction entries using List.reverseRecOn with
  | nil => exact Nat.le_refl _
  | append_singleton front last _ =>
      rw [strippedPairs, List.dropLast_concat, List.getLast?_concat, Option.bind_some,
        List.map_append, List.length_append, List.length_append]
      cases strippedPair last <;> simp

theorem strippedPairs_eq_iff
    {entries : List (Int × List Char)}
    (isNew : ∀ entry ∈ entries, OnNewSide entry) :
    strippedPairs entries = entries.map pairOf ↔
      ∀ last ∈ entries.getLast?, rstrip last.2 = last.2 := by
  induction entries using List.reverseRecOn with
  | nil => exact iff_of_true rfl fun _ member => by cases member
  | append_singleton front last _ =>
      obtain ⟨number, sign, content, rfl, _⟩ :=
        isNew last (List.mem_append_right _ (List.mem_singleton_self last))
      have stripped : strippedPair ((number : Int), sign :: content) =
          some (pairOf ((number : Int), sign :: content)) ↔
            rstrip (sign :: content) = sign :: content := by
        rw [strippedPair]
        obtain ⟨behind, whole⟩ := rstrip_isPrefix (sign :: content)
        cases same : rstrip (sign :: content) with
        | nil => exact iff_of_false (fun found => by cases found) (fun empty => by cases empty)
        | cons c rest =>
            rw [same] at whole
            injection whole with head
            rw [head, Option.some.injEq, pairOf, Prod.mk.injEq, List.cons.injEq]
            simp
      rw [strippedPairs, List.dropLast_concat, List.getLast?_concat, Option.bind_some,
        List.map_append, List.map_singleton, List.append_cancel_left_eq]
      simp only [Option.mem_def, Option.some.injEq, forall_eq']
      rw [← stripped]
      cases strippedPair ((number : Int), sign :: content) <;> simp

theorem filter_eq_filter_iff
    {α : Type*}
    {found expected : List (List α)}
    (shorter : List.Forall₂ (fun block other => block.length ≤ other.length) found expected) :
    found.filter (· ≠ []) = expected.filter (· ≠ []) ↔ found = expected := by
  have total : ∀ blocks : List (List α),
      (blocks.filter (· ≠ [])).flatten.length = blocks.flatten.length := by
    intro blocks
    rw [List.flatten_filter_ne_nil]
  have sizes : ∀ {found expected : List (List α)},
      List.Forall₂ (fun block other => block.length ≤ other.length) found expected →
        found.flatten.length ≤ expected.flatten.length := by
    intro found expected shorter
    induction shorter with
    | nil => exact Nat.le_refl _
    | cons here _ ih =>
        rw [List.flatten_cons, List.flatten_cons, List.length_append, List.length_append]
        omega
  refine ⟨?_, fun same => by rw [same]⟩
  induction shorter with
  | nil => exact fun _ => rfl
  | cons here later ih =>
      rename_i block other blocks others
      intro same
      cases other with
      | nil =>
          have empty : block = [] := List.length_eq_zero_iff.mp (Nat.le_zero.mp here)
          rw [empty] at same ⊢
          rw [ih same]
      | cons first rest =>
          cases block with
          | nil =>
              have lengths := congrArg (fun blocks => blocks.flatten.length) same
              rw [total, total] at lengths
              have bound := sizes later
              simp only [List.flatten_cons, List.length_append, List.length_nil,
                List.length_cons] at lengths
              omega
          | cons c block =>
              have parts := List.cons.inj same
              rw [parts.1, ih parts.2]

/-- The hunks of a patch that are written: the last one needs a new side. -/
def writtenPart (hunks : List UnifiedHunk) : List UnifiedHunk :=
  if hunks.getLast?.any (·.newSide = []) then hunks.dropLast else hunks

namespace UnifiedHunk

variable {hunk : UnifiedHunk}

theorem endsClean_iff :
    strippedPairs hunk.numbered.newLines = hunk.numbered.newLines.map pairOf ↔
      hunk.EndsClean := by
  have side : hunk.newSide = hunk.numbered.newLines.map (·.2) :=
    (map_snd_newFileLines hunk.start2 hunk.body).symm
  have isNew : ∀ entry ∈ hunk.numbered.newLines, OnNewSide entry :=
    fun _ member => onNewSide_of_mem_newFileLines member
  rw [strippedPairs_eq_iff isNew, EndsClean, side, List.getLast?_map]
  cases hunk.numbered.newLines.getLast? <;> simp

end UnifiedHunk

variable (hunks : List UnifiedHunk)

theorem readBlocks_eq_iff :
    readBlocks (hunks.map (·.numbered)) =
        (hunks.map (·.numbered)).map (fun hunk => hunk.newLines.map pairOf) ↔
      (∀ hunk ∈ hunks, hunk.Deletes → hunk.EndsClean) ∧
        ∀ last ∈ hunks.getLast?, last.EndsClean := by
  induction hunks with
  | nil => exact iff_of_true rfl ⟨fun _ member => absurd member List.not_mem_nil,
      fun _ member => by cases member⟩
  | cons hunk rest ih =>
      cases rest with
      | nil =>
          rw [List.map_singleton, readBlocks, List.map_singleton, List.singleton_inj,
            UnifiedHunk.endsClean_iff]
          simp only [List.mem_singleton, forall_eq, List.getLast?_singleton, Option.mem_def,
            Option.some.injEq, forall_eq']
          exact ⟨fun clean => ⟨fun _ => clean, clean⟩, fun both => both.2⟩
      | cons next rest =>
          have first : (if hunk.numbered.oldLines = [] then hunk.numbered.newLines.map pairOf
              else strippedPairs hunk.numbered.newLines) = hunk.numbered.newLines.map pairOf ↔
                (hunk.Deletes → hunk.EndsClean) := by
            rw [← UnifiedHunk.endsClean_iff]
            by_cases old : hunk.numbered.oldLines = []
            · rw [if_pos old]
              exact iff_of_true rfl fun deletes =>
                absurd deletes (UnifiedHunk.oldLines_numbered_eq_nil_iff.mp old)
            · have deletes : hunk.Deletes :=
                not_not.mp (UnifiedHunk.oldLines_numbered_eq_nil_iff.not.mp old)
              rw [if_neg old]
              exact (imp_iff_right deletes).symm
          have step : readBlocks ((hunk :: next :: rest).map (·.numbered)) =
              (if hunk.numbered.oldLines = [] then hunk.numbered.newLines.map pairOf
                else strippedPairs hunk.numbered.newLines) ::
                  readBlocks ((next :: rest).map (·.numbered)) := rfl
          have expected : ((hunk :: next :: rest).map (·.numbered)).map
              (fun hunk => hunk.newLines.map pairOf) = hunk.numbered.newLines.map pairOf ::
                ((next :: rest).map (·.numbered)).map (fun hunk => hunk.newLines.map pairOf) := rfl
          rw [step, expected, List.cons.injEq, ih, first, List.getLast?_cons_cons]
          constructor
          · rintro ⟨head, others, last⟩
            exact ⟨List.forall_mem_cons.mpr ⟨head, others⟩, last⟩
          · rintro ⟨all, last⟩
            obtain ⟨head, others⟩ := List.forall_mem_cons.mp all
            exact ⟨head, others, last⟩

theorem readBlocks_shorter
    (hunks : List NumberedHunk) :
    List.Forall₂ (fun block other => block.length ≤ other.length) (readBlocks hunks)
      (hunks.map fun hunk => hunk.newLines.map pairOf) := by
  induction hunks with
  | nil => exact List.Forall₂.nil
  | cons hunk rest ih =>
      cases rest with
      | nil => exact List.Forall₂.cons (length_strippedPairs _) List.Forall₂.nil
      | cons next rest =>
          refine List.Forall₂.cons ?_ ih
          split
          · exact Nat.le_refl _
          · exact length_strippedPairs _

theorem expectedBlocks_writtenPart :
    expectedBlocks (writtenPart hunks) = expectedBlocks hunks := by
  rw [writtenPart]
  split
  · rename_i unwritten
    induction hunks using List.reverseRecOn with
    | nil => rfl
    | append_singleton front last _ =>
        rw [List.getLast?_concat, Option.any_some, decide_eq_true_iff] at unwritten
        have none_ : newSidePairs last.start2 last.body = [] := by
          have lines := map_snd_newFileLines last.start2 last.body
          rw [newSidePairs_eq, List.map_eq_nil_iff, ← List.map_eq_nil_iff (f := (·.2)), lines]
          exact unwritten
        rw [List.dropLast_concat, expectedBlocks, expectedBlocks, List.map_append,
          List.filter_append, List.map_singleton, none_]
        simp
  · rfl

end MrAgent
