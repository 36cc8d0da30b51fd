import Mathlib
import MrAgent.PatchText
import MrAgent.SeparatedText

namespace MrAgent

/-!
# Hunks without an added line

`omit_deletion_hunks` collects the lines of the current hunk and moves them to
its result when the next header shows up. The collected lines are thrown away
only when they are moved, so a hunk that is to be omitted stays in front of the
next one.
-/

/-! ## `omit_deletion_hunks` -/

/-- The variables of the loop. -/
structure DeletionScan where
  tempHunk : List (List Char) := []
  addedPatched : List (List Char) := []
  addHunk : Bool := false
  insideHunk : Bool := false

namespace DeletionScan

/-- The lines of a hunk that is finished and has an added line are moved. -/
def finish (scan : DeletionScan) : DeletionScan :=
  if scan.insideHunk && scan.addHunk then
    { scan with
      addedPatched := scan.addedPatched ++ scan.tempHunk
      tempHunk := []
      addHunk := false }
  else scan

/-- A line is collected. -/
def collect (scan : DeletionScan) (line : List Char) : DeletionScan :=
  { scan with tempHunk := scan.tempHunk ++ [line] }

/-- The body of the loop. -/
def step (env : DigitEnv) (scan : DeletionScan) (line : List Char) : DeletionScan :=
  if startsHeader line then
    match env.matchHeader line with
    | some _ => { scan.finish.collect line with insideHunk := true }
    | none => scan
  else if line.head? = some '+' then { scan.collect line with addHunk := true }
  else scan.collect line

end DeletionScan

/-- `omit_deletion_hunks`. -/
def omitDeletionHunks (env : DigitEnv) (patchLines : List (List Char)) : List Char :=
  let scan := patchLines.foldl (DeletionScan.step env) {}
  ['\n'].intercalate
    (if scan.insideHunk && scan.addHunk then scan.addedPatched ++ scan.tempHunk
      else scan.addedPatched)

/-! ## Hunks -/

/-- A hunk as a header and the lines behind it, of which none looks like a header. -/
structure HunkText (env : DigitEnv) where
  header : List Char
  body : List (List Char)
  headerMatches : (env.matchHeader header).isSome
  bodyPlain : ∀ line ∈ body, startsHeader line = false

namespace HunkText

variable {env : DigitEnv}

/-- The lines of a hunk. -/
def lines (hunk : HunkText env) : List (List Char) :=
  hunk.header :: hunk.body

/-- Whether a hunk has an added line. -/
def adds (hunk : HunkText env) : Bool :=
  hunk.body.any fun line => line.head? = some '+'

theorem header_starts (hunk : HunkText env) : startsHeader hunk.header = true :=
  startsHeader_of_matchHeader hunk.headerMatches

end HunkText

/-! ## One hunk -/

namespace DeletionScan

variable {env : DigitEnv}

theorem foldl_body
    (body : List (List Char))
    (plain : ∀ line ∈ body, startsHeader line = false)
    (scan : DeletionScan) :
    body.foldl (step env) scan =
      { scan with
        tempHunk := scan.tempHunk ++ body
        addHunk := scan.addHunk || body.any fun line => line.head? = some '+' } := by
  induction body generalizing scan with
  | nil =>
      simp
  | cons line rest ih =>
      have plainLine := plain line List.mem_cons_self
      rw [List.foldl_cons, ih fun other member =>
        plain other (List.mem_cons_of_mem _ member)]
      by_cases added : line.head? = some '+'
      · simp [step, collect, plainLine, added]
      · simp [step, collect, plainLine, added]

theorem foldl_hunk
    (hunk : HunkText env)
    (scan : DeletionScan) :
    hunk.lines.foldl (step env) scan =
      { scan.finish with
        tempHunk := scan.finish.tempHunk ++ hunk.lines
        addHunk := scan.finish.addHunk || hunk.adds
        insideHunk := true } := by
  obtain ⟨found, matched⟩ := Option.isSome_iff_exists.mp hunk.headerMatches
  rw [HunkText.lines, List.foldl_cons, foldl_body hunk.body hunk.bodyPlain]
  simp [step, hunk.header_starts, matched, collect, HunkText.adds]

/-! ## All hunks -/

/-- The hunks up to the last one that has an added line. -/
def upToLastAdded (hunks : List (HunkText env)) : List (HunkText env) :=
  hunks.rdropWhile fun hunk => !hunk.adds

theorem upToLastAdded_concat (hunks : List (HunkText env)) (hunk : HunkText env) :
    upToLastAdded (hunks ++ [hunk]) =
      if hunk.adds then hunks ++ [hunk] else upToLastAdded hunks := by
  cases adds : hunk.adds <;> simp [upToLastAdded, adds]

/-- What the variables hold behind some hunks. -/
structure Scanned (hunks : List (HunkText env)) (scan : DeletionScan) : Prop where
  inside : scan.insideHunk = decide (hunks ≠ [])
  all : scan.addedPatched ++ scan.tempHunk = hunks.flatMap HunkText.lines
  result : (if scan.addHunk then scan.addedPatched ++ scan.tempHunk else scan.addedPatched) =
    (upToLastAdded hunks).flatMap HunkText.lines
  nonempty : scan.addHunk = true → hunks ≠ []

theorem scanned_empty : Scanned ([] : List (HunkText env)) {} where
  inside := rfl
  all := rfl
  result := rfl
  nonempty := by simp

theorem Scanned.hunk
    {hunks : List (HunkText env)}
    {scan : DeletionScan}
    (scanned : Scanned hunks scan)
    (hunk : HunkText env) :
    Scanned (hunks ++ [hunk]) (hunk.lines.foldl (step env) scan) := by
  rw [foldl_hunk]
  have all := scanned.all
  have result := scanned.result
  cases adding : scan.addHunk with
  | true =>
      have entered : scan.insideHunk = true := by
        simpa using scanned.inside.trans (decide_eq_true (scanned.nonempty adding))
      have finished : scan.finish =
          { scan with
            addedPatched := scan.addedPatched ++ scan.tempHunk
            tempHunk := []
            addHunk := false } := by
        simp [finish, entered, adding]
      rw [adding, if_pos rfl] at result
      rw [finished]
      refine ⟨by simp, by simp [all], ?_, by simp⟩
      rw [upToLastAdded_concat]
      cases adds : hunk.adds with
      | true =>
          simp [all]
      | false =>
          simpa using result
  | false =>
      have unfinished : scan.finish = scan := by
        simp [finish, adding]
      rw [adding] at result
      rw [unfinished]
      refine ⟨by simp, by simp [← all], ?_, by simp⟩
      rw [upToLastAdded_concat]
      cases adds : hunk.adds with
      | true =>
          simp [← all]
      | false =>
          simpa [adding] using result

theorem scanned_hunks (hunks : List (HunkText env)) :
    Scanned hunks ((hunks.flatMap HunkText.lines).foldl (step env) {}) := by
  induction hunks using List.reverseRecOn with
  | nil =>
      exact scanned_empty
  | append_singleton hunks hunk ih =>
      rw [List.flatMap_append, List.foldl_append]
      simpa using ih.hunk hunk

end DeletionScan

variable {env : DigitEnv}

theorem omitDeletionHunks_eq (hunks : List (HunkText env)) :
    omitDeletionHunks env (hunks.flatMap HunkText.lines) =
      ['\n'].intercalate ((DeletionScan.upToLastAdded hunks).flatMap HunkText.lines) := by
  have scanned := DeletionScan.scanned_hunks hunks
  rw [omitDeletionHunks, ← scanned.result]
  cases adding : ((hunks.flatMap HunkText.lines).foldl (DeletionScan.step env) {}).addHunk with
  | true =>
      have nonempty := scanned.nonempty adding
      simp [scanned.inside, nonempty]
  | false =>
      simp

/-- Whether every hunk in front of one with an added line has an added line, too. -/
def DeletionsLast (hunks : List (HunkText env)) : Prop :=
  hunks.Pairwise fun earlier later => later.adds = true → earlier.adds = true

instance (hunks : List (HunkText env)) : Decidable (DeletionsLast hunks) :=
  inferInstanceAs (Decidable (hunks.Pairwise _))

theorem filter_adds_sublist (hunks : List (HunkText env)) :
    (hunks.filter HunkText.adds).Sublist (DeletionScan.upToLastAdded hunks) := by
  induction hunks using List.reverseRecOn with
  | nil =>
      exact List.Sublist.refl []
  | append_singleton hunks hunk ih =>
      rw [DeletionScan.upToLastAdded_concat, List.filter_append]
      cases adds : hunk.adds with
      | true =>
          simp [adds]
      | false =>
          simpa [adds] using ih

theorem filter_adds_eq_iff (hunks : List (HunkText env)) :
    hunks.filter HunkText.adds = DeletionScan.upToLastAdded hunks ↔ DeletionsLast hunks := by
  induction hunks using List.reverseRecOn with
  | nil =>
      simp [DeletionScan.upToLastAdded, DeletionsLast]
  | append_singleton hunks hunk ih =>
      rw [DeletionScan.upToLastAdded_concat, List.filter_append, DeletionsLast,
        List.pairwise_append, ← DeletionsLast]
      cases adds : hunk.adds with
      | true =>
          have each : hunks.filter HunkText.adds = hunks ↔ ∀ other ∈ hunks, other.adds = true :=
            List.filter_eq_self
          have ordered : (∀ other ∈ hunks, other.adds = true) → DeletionsLast hunks :=
            fun all => List.pairwise_of_forall_mem_list fun first member _ _ _ => all first member
          simpa [adds, each] using ordered
      | false =>
          simpa [adds] using ih

/-- The filter returns the hunks with an added line exactly where none of the others comes first. -/
theorem omit_deletion_hunks_exact_iff (hunks : List (HunkText env)) :
    omitDeletionHunks env (hunks.flatMap HunkText.lines) =
        ['\n'].intercalate ((hunks.filter HunkText.adds).flatMap HunkText.lines) ↔
      DeletionsLast hunks := by
  rw [omitDeletionHunks_eq, ← filter_adds_eq_iff]
  constructor
  · intro same
    have sublist := filter_adds_sublist hunks
    have headers : ∀ line ∈ ((DeletionScan.upToLastAdded hunks).flatMap HunkText.lines).head?,
        line ≠ [] := by
      cases DeletionScan.upToLastAdded hunks with
      | nil =>
          simp
      | cons hunk rest =>
          rintro line ⟨rfl⟩ empty
          have starts := hunk.header_starts
          rw [empty] at starts
          exact Bool.false_ne_true starts
    have lines := SeparatedText.eq_of_intercalate_eq (sublist.flatMap HunkText.lines) headers
      same.symm
    exact SeparatedText.eq_of_flatMap_eq sublist (fun hunk => List.cons_ne_nil _ _) lines
  · intro same
    rw [same]

/-- Only ASCII digits. -/
def asciiDigits : DigitEnv where
  foreignDigit := fun _ => none

/-- A hunk that deletes a line, then one that adds a line. -/
def deletionThenAddition : List (HunkText asciiDigits) :=
  [{ header := "@@ -1,2 +1 @@".toList
     body := [" a".toList, "-b".toList]
     headerMatches := by decide
     bodyPlain := by decide },
   { header := "@@ -9,2 +8,3 @@".toList
     body := [" x".toList, "+y".toList, " z".toList]
     headerMatches := by decide
     bodyPlain := by decide }]

/-- The hunk without an added line is returned in front of the other one. -/
theorem deletion_hunk_is_kept :
    omitDeletionHunks asciiDigits (deletionThenAddition.flatMap HunkText.lines) ≠
      ['\n'].intercalate
        ((deletionThenAddition.filter HunkText.adds).flatMap HunkText.lines) := by
  decide +kernel

end MrAgent
