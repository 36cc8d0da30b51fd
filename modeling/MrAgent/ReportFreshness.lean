import MrAgent.FormatReport

namespace MrAgent

/-!
# Hunks against the current file

A hunk is placed by its header and by the hunks before it. Only its deletion
lines are compared with the file, so hunks that are applied may carry context
that the file does not have.
-/

/-- The old side of some lines of a hunk. -/
def oldSideOf (lines : List (DiffLineKind × List Char)) : List (DiffLineKind × List Char) :=
  lines.filter (·.1 ≠ .addition)

/-- The lines of one kind agree with the file from a line on, up to white space at their ends. -/
def Agrees
    (original : List (List Char))
    (kind : DiffLineKind)
    (start : Nat)
    (lines : List (DiffLineKind × List Char)) : Prop :=
  ∀ offset text, (oldSideOf lines)[offset]? = some (kind, text) →
    ∃ line, original[start + offset]? = some line ∧ rstrip line = rstrip text

namespace ReportHunk

/-- The line of the file that the header names, from zero on. -/
def target (hunk : ReportHunk) : Nat :=
  hunk.oldStart - 1

/-- The line behind the old side. -/
def behind (hunk : ReportHunk) : Nat :=
  hunk.target + (oldSideOf hunk.lines).length

end ReportHunk

/-- The hunks stand in order within the file, from a line on. -/
def HunksPlaced (original : List (List Char)) : Nat → List ReportHunk → Prop
  | _, [] => True
  | cursor, hunk :: rest =>
    (1 ≤ hunk.oldStart ∧ cursor ≤ hunk.target ∧ hunk.target ≤ original.length) ∧
      HunksPlaced original hunk.behind rest

/-- The lines of one kind of all hunks agree with the file. -/
def HunksAgree
    (original : List (List Char))
    (kind : DiffLineKind)
    (hunks : List ReportHunk) : Prop :=
  ∀ hunk ∈ hunks, Agrees original kind hunk.target hunk.lines

section Lines

variable {original : List (List Char)}

variable (kind : DiffLineKind)

theorem agrees_nil
    (start : Nat) :
    Agrees original kind start [] :=
  fun _ _ found => by cases found

theorem agrees_addition
    (start : Nat)
    (text : List Char)
    (lines : List (DiffLineKind × List Char)) :
    Agrees original kind start ((.addition, text) :: lines) ↔ Agrees original kind start lines :=
  Iff.rfl

theorem agrees_cons
    {first kind : DiffLineKind}
    (old : first ≠ .addition)
    (start : Nat)
    (text : List Char)
    (lines : List (DiffLineKind × List Char)) :
    Agrees original kind start ((first, text) :: lines) ↔
      (first = kind → ∃ line, original[start]? = some line ∧ rstrip line = rstrip text) ∧
        Agrees original kind (start + 1) lines := by
  have side : oldSideOf ((first, text) :: lines) = (first, text) :: oldSideOf lines :=
    List.filter_cons_of_pos (decide_eq_true old)
  constructor
  · intro agrees
    constructor
    · intro same
      refine agrees 0 text ?_
      rw [side, ← same]
      rfl
    · intro offset other found
      have later := agrees (offset + 1) other (by rw [side]; exact found)
      rw [Nat.add_comm offset 1, ← Nat.add_assoc] at later
      exact later
  · rintro ⟨here, later⟩ offset other found
    rw [side] at found
    cases offset with
    | zero =>
        have same := Prod.mk.inj (Option.some.inj found)
        rw [← same.2]
        exact here same.1
    | succ offset =>
        have found := later offset other found
        rw [Nat.add_assoc, Nat.add_comm 1] at found
        exact found

theorem applyLines_isSome
    (lines : List (DiffLineKind × List Char))
    (cursor : Nat) :
    (applyLines original cursor lines).isSome = true ↔
      Agrees original .deletion cursor lines := by
  induction lines generalizing cursor with
  | nil =>
      exact iff_of_true rfl (agrees_nil _ _)
  | cons entry rest ih =>
      obtain ⟨kind, text⟩ := entry
      cases kind with
      | context =>
          rw [applyLines, Option.isSome_map, ih,
            agrees_cons (by decide : DiffLineKind.context ≠ .addition)]
          exact (and_iff_right fun same => by cases same).symm
      | addition =>
          rw [applyLines, Option.isSome_map, ih, agrees_addition]
      | deletion =>
          rw [applyLines, agrees_cons (by decide : DiffLineKind.deletion ≠ .addition)]
          cases found : original[cursor]? with
          | none => simp
          | some line =>
              by_cases same : rstrip line = rstrip text
              · simp [same, ih]
              · simp [same]

theorem applyLines_cursor
    {lines : List (DiffLineKind × List Char)}
    {cursor : Nat}
    {done : Nat × List (List Char)}
    (applied : applyLines original cursor lines = some done) :
    done.1 = cursor + (oldSideOf lines).length := by
  induction lines generalizing cursor done with
  | nil =>
      cases applied
      rfl
  | cons entry rest ih =>
      obtain ⟨kind, text⟩ := entry
      have old : kind ≠ .addition →
          (oldSideOf ((kind, text) :: rest)).length = (oldSideOf rest).length + 1 := by
        intro isOld
        have side : oldSideOf ((kind, text) :: rest) = (kind, text) :: oldSideOf rest :=
          List.filter_cons_of_pos (decide_eq_true isOld)
        rw [side, List.length_cons]
      cases kind with
      | context =>
          rw [applyLines, Option.map_eq_some_iff] at applied
          obtain ⟨further, later, rfl⟩ := applied
          have moved := ih later
          have size := old (by decide)
          dsimp only
          omega
      | addition =>
          rw [applyLines, Option.map_eq_some_iff] at applied
          obtain ⟨further, later, rfl⟩ := applied
          have moved := ih later
          exact moved
      | deletion =>
          rw [applyLines] at applied
          split at applied
          · cases applied
          · split at applied
            · have moved := ih applied
              have size := old (by decide)
              omega
            · cases applied

theorem applyFrom_isSome
    (hunks : List ReportHunk)
    (cursor : Nat) :
    (applyFrom original cursor hunks).isSome = true ↔
      HunksPlaced original cursor hunks ∧ HunksAgree original .deletion hunks := by
  induction hunks generalizing cursor with
  | nil =>
      exact iff_of_true rfl ⟨trivial, fun _ member => absurd member List.not_mem_nil⟩
  | cons hunk rest ih =>
      have all : HunksAgree original .deletion (hunk :: rest) ↔
          Agrees original .deletion hunk.target hunk.lines ∧
            HunksAgree original .deletion rest := by
        exact List.forall_mem_cons
      rw [applyFrom, all, HunksPlaced]
      by_cases fits : 1 ≤ hunk.oldStart ∧ cursor ≤ hunk.target ∧ hunk.target ≤ original.length
      · have start : ((hunk.oldStart : Int) - 1).toNat = hunk.target := by
          rw [ReportHunk.target]
          omega
        have inside : ¬ ((hunk.oldStart : Int) - 1 < cursor ∨
            (hunk.oldStart : Int) - 1 > original.length) := by
          rw [ReportHunk.target] at fits
          omega
        rw [if_neg inside, start]
        cases applied : applyLines original hunk.target hunk.lines with
        | none =>
            have disagrees : ¬ Agrees original .deletion hunk.target hunk.lines := by
              rw [← applyLines_isSome, applied]
              decide
            simp [disagrees]
        | some done =>
            have agrees : Agrees original .deletion hunk.target hunk.lines := by
              rw [← applyLines_isSome, applied]
              rfl
            have moved : done.1 = hunk.behind := applyLines_cursor applied
            simp only [Option.bind_some, Option.isSome_map]
            rw [moved, ih]
            simp [agrees, fits]
      · have outside : (hunk.oldStart : Int) - 1 < cursor ∨
            (hunk.oldStart : Int) - 1 > original.length := by
          rw [ReportHunk.target] at fits
          omega
        rw [if_pos outside]
        simp [fits]

end Lines

/-- A content is returned only when the context and the deletions of all hunks agree with it. -/
def OnlyFresh (original : String) (hunks : List ReportHunk) : Prop :=
  ∀ content, applyHunks original hunks = some content →
    HunksAgree (splitLines original) .context hunks ∧
      HunksAgree (splitLines original) .deletion hunks

/-- A report is fresh when it is applied, or its lines that are not compared agree as well. -/
theorem stale_report_is_skipped_iff
    (original : String)
    (hunks : List ReportHunk) :
    OnlyFresh original hunks ↔
      (HunksPlaced (splitLines original) 0 hunks ∧
          HunksAgree (splitLines original) .deletion hunks →
        HunksAgree (splitLines original) .context hunks) := by
  have applied := @applyFrom_isSome (splitLines original) hunks 0
  constructor
  · intro fresh compared
    obtain ⟨result, isResult⟩ := Option.isSome_iff_exists.mp (applied.mpr compared)
    have content : ∃ content, applyHunks original hunks = some content := by
      rw [applyHunks, isResult]
      exact ⟨_, rfl⟩
    obtain ⟨content, isContent⟩ := content
    exact (fresh content isContent).1
  · intro contexts content isContent
    rw [applyHunks, Option.map_eq_some_iff] at isContent
    obtain ⟨result, isResult, _⟩ := isContent
    have compared := applied.mp (by rw [isResult]; rfl)
    exact ⟨contexts compared, compared.2⟩

namespace FreshnessSample

/-- A blank line is inserted before `void g();`. -/
def hunk : ReportHunk where
  oldStart := 1
  lines :=
    [(.context, "void f();".toList), (.addition, []), (.context, "void g();".toList),
      (.context, "void h();".toList)]

/-- The file has changed since the report was made. -/
def moved : String :=
  "// new\nvoid f();\nvoid g();\nvoid h();\n"

end FreshnessSample

/-- A report whose context has moved is applied all the same. -/
theorem moved_context_is_applied :
    applyHunks FreshnessSample.moved [FreshnessSample.hunk] =
        some "// new\n\nvoid f();\nvoid g();\nvoid h();\n".toList ∧
      ¬ OnlyFresh FreshnessSample.moved [FreshnessSample.hunk] := by
  have applied : applyHunks FreshnessSample.moved [FreshnessSample.hunk] =
      some "// new\n\nvoid f();\nvoid g();\nvoid h();\n".toList := by
    decide +kernel
  refine ⟨applied, fun fresh => ?_⟩
  obtain ⟨line, found, same⟩ :=
    (fresh _ applied).1 _ (List.mem_singleton_self _) 0 "void f();".toList rfl
  have first : (splitLines FreshnessSample.moved)[0 + 0]? = some "// new".toList := by
    decide +kernel
  have isFirst : line = "// new".toList := Option.some.inj (found.symm.trans first)
  rw [isFirst] at same
  exact absurd same (by decide +kernel)

end MrAgent
