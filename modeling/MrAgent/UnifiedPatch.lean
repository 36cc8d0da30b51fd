import MrAgent.PatchScan
import MrAgent.PatchText
import MrAgent.TextLines

namespace MrAgent

/-!
# Unified patches

A patch as git writes it: hunks whose header states where they start and how
many lines of each side they hold. Its text ends every line with a line feed,
after a carriage return where the file has one, and may leave the last line
without an end.
-/

/-- The texts that a line of a patch can hold between its sign and its end. -/
structure LineText where
  text : List Char
  oneLine : '\n' ∉ text

/-- A line of a hunk; the last line of a file may have no newline. -/
structure HunkLine where
  kind : DiffLineKind
  content : LineText
  noNewline : Bool := false

/-- The sign of a line. -/
def DiffLineKind.sign : DiffLineKind → Char
  | .context => ' '
  | .addition => '+'
  | .deletion => '-'

namespace HunkLine

/-- The line as it stands in the patch. -/
def line (entry : HunkLine) : List Char :=
  entry.kind.sign :: entry.content.text

/-- `\ No newline at end of file` -/
def marker : List Char :=
  "\\ No newline at end of file".toList

/-- The line with the marker that may follow it. -/
def lines (entry : HunkLine) : List (List Char) :=
  if entry.noNewline then [entry.line, marker] else [entry.line]

end HunkLine

/-- A hunk that changes something. The sizes follow from the lines; a size of one may be left out. -/
structure UnifiedHunk where
  start1 : Nat
  start2 : Nat
  leaveOut1 : Bool := false
  leaveOut2 : Bool := false
  section_ : Option LineText := none
  body : List HunkLine
  changes : ∃ entry ∈ body, entry.kind ≠ .context

/-- The start and the size of one side in a header. -/
def rangeText (start size : Nat) (leaveOut : Bool) : List Char :=
  Nat.toDigits 10 start ++
    if leaveOut = true ∧ size = 1 then [] else ',' :: Nat.toDigits 10 size

namespace UnifiedHunk

/-- The lines of the old file. -/
def oldSide (hunk : UnifiedHunk) : List (List Char) :=
  (hunk.body.filter (·.kind ≠ .addition)).map (·.line)

/-- The lines of the new file. -/
def newSide (hunk : UnifiedHunk) : List (List Char) :=
  (hunk.body.filter (·.kind ≠ .deletion)).map (·.line)

/-- The header. -/
def header (hunk : UnifiedHunk) : List Char :=
  "@@ -".toList ++ (rangeText hunk.start1 hunk.oldSide.length hunk.leaveOut1 ++
    (" +".toList ++ (rangeText hunk.start2 hunk.newSide.length hunk.leaveOut2 ++
      (" @@".toList ++ (hunk.section_.map fun text => ' ' :: text.text).getD []))))

/-- The lines of a hunk. -/
def lines (hunk : UnifiedHunk) : List (List Char) :=
  hunk.header :: hunk.body.flatMap HunkLine.lines

end UnifiedHunk

/-- The text of some lines; the last end may be missing. -/
def patchText (final : Bool) : (Nat → Bool) → List (List Char) → List Char
  | _, [] => []
  | ends, [line] => if final then line ++ (lineEnd (ends 0) ++ []) else line
  | ends, line :: rest =>
    line ++ (lineEnd (ends 0) ++ patchText final (fun index => ends (index + 1)) rest)

theorem splitLinesFrom_patchText
    {lines : List (List Char)}
    (plain : ∀ line ∈ lines, unbroken line = true ∧ line ≠ [])
    (final : Bool)
    (ends : Nat → Bool) :
    splitLinesFrom [] (patchText final ends lines) = lines := by
  induction lines generalizing ends with
  | nil =>
      rfl
  | cons line rest ih =>
      have ⟨whole, filled⟩ := plain line List.mem_cons_self
      have further := ih
        (fun other member => plain other (List.mem_cons_of_mem _ member))
        (fun index => ends (index + 1))
      cases rest with
      | nil =>
          cases final with
          | false => exact splitLinesFrom_last whole filled
          | true => exact splitLinesFrom_lineEnd whole (ends 0) []
      | cons next rest =>
          rw [patchText, splitLinesFrom_lineEnd whole, further]
          exact List.cons_ne_nil next rest

/-! ## Reading a header back -/

namespace DigitEnv

variable (env : DigitEnv)

variable {c : Char}

theorem digit_of_isDigit
    (digit : c.isDigit = true) :
    env.digit c = some (c.toNat - '0'.toNat) := by
  rw [DigitEnv.digit, if_pos digit]

variable (number : Nat)

theorem number_toDigits :
    env.number (Nat.toDigits 10 number) = number := by
  have folded : ∀ (digits : List Char) (value : Nat),
      (∀ c ∈ digits, c.isDigit = true) →
      digits.foldl (fun value c => value * 10 + (env.digit c).getD 0) value =
        Nat.ofDigitChars 10 digits value := by
    intro digits
    induction digits with
    | nil =>
        exact fun _ _ => rfl
    | cons c rest ih =>
        intro value plain
        rw [List.foldl_cons, env.digit_of_isDigit (plain c List.mem_cons_self), Option.getD_some,
          ih _ fun other member => plain other (List.mem_cons_of_mem c member),
          Nat.ofDigitChars_eq_foldl, Nat.ofDigitChars_eq_foldl, List.foldl_cons, Nat.mul_comm]
  have plain : ∀ c ∈ Nat.toDigits 10 number, c.isDigit = true := fun c member =>
    Nat.isDigit_of_mem_toDigits (by decide) (by decide) member
  rw [DigitEnv.number, folded _ 0 plain, Nat.ofDigitChars_ten_toDigits]

theorem takeDigits_toDigits
    (foreign : env.digit c = none)
    (rest : List Char) :
    env.takeDigits (Nat.toDigits 10 number ++ c :: rest) =
      some (Nat.toDigits 10 number, c :: rest) := by
  have digits : (Nat.toDigits 10 number ++ c :: rest).takeWhile
      (fun c => (env.digit c).isSome) = Nat.toDigits 10 number := by
    rw [List.takeWhile_append_of_pos, List.takeWhile_cons, foreign]
    · exact List.append_nil _
    · intro other member
      rw [env.digit_of_isDigit (Nat.isDigit_of_mem_toDigits (by decide) (by decide) member)]
      rfl
  rw [DigitEnv.takeDigits, digits, List.drop_left]
  exact if_neg Nat.toDigits_ne_nil

theorem takeSize_rangeText
    (start size : Nat)
    (leaveOut : Bool)
    (rest : List Char) :
    ∃ behind stated,
      env.takeDigits (rangeText start size leaveOut ++ ' ' :: rest) =
          some (Nat.toDigits 10 start, behind) ∧
        env.takeSize behind = (stated, ' ' :: rest) := by
  rw [rangeText]
  by_cases short : leaveOut = true ∧ size = 1
  · rw [if_pos short, List.append_nil]
    exact ⟨' ' :: rest, none, env.takeDigits_toDigits start rfl rest, rfl⟩
  · rw [if_neg short, List.append_assoc, List.cons_append]
    refine ⟨',' :: (Nat.toDigits 10 size ++ ' ' :: rest), some (Nat.toDigits 10 size),
      env.takeDigits_toDigits start rfl _, ?_⟩
    rw [DigitEnv.takeSize, env.takeDigits_toDigits size rfl rest]

end DigitEnv

theorem afterStart_append
    (start rest : List Char) :
    afterStart start (start ++ rest) = some rest := by
  rw [afterStart, if_pos (List.prefix_append start rest), List.drop_left]

theorem UnifiedHunk.matchHeader_header
    (env : DigitEnv)
    (hunk : UnifiedHunk) :
    ∃ found,
      env.matchHeader hunk.header = some found ∧
        found.start2 = Nat.toDigits 10 hunk.start2 := by
  let text := (hunk.section_.map fun text => ' ' :: text.text).getD []
  let new := rangeText hunk.start2 hunk.newSide.length hunk.leaveOut2
  obtain ⟨oldBehind, oldStated, oldDigits, oldSize⟩ :=
    env.takeSize_rangeText hunk.start1 hunk.oldSide.length hunk.leaveOut1
      ('+' :: (new ++ (" @@".toList ++ text)))
  obtain ⟨newBehind, newStated, newDigits, newSize⟩ :=
    env.takeSize_rangeText hunk.start2 hunk.newSide.length hunk.leaveOut2 ("@@".toList ++ text)
  have opened : afterStart "@@ -".toList hunk.header =
      some (rangeText hunk.start1 hunk.oldSide.length hunk.leaveOut1 ++
        ' ' :: '+' :: (new ++ (" @@".toList ++ text))) :=
    afterStart_append "@@ -".toList _
  have middle : afterStart " +".toList (' ' :: '+' :: (new ++ (" @@".toList ++ text))) =
      some (new ++ (" @@".toList ++ text)) :=
    afterStart_append " +".toList _
  have closed : afterStart " @@".toList (' ' :: ("@@".toList ++ text)) = some text :=
    afterStart_append " @@".toList _
  refine ⟨⟨Nat.toDigits 10 hunk.start1, oldStated, Nat.toDigits 10 hunk.start2, newStated,
    ((afterStart [' '] text).getD text).takeWhile (· ≠ '\n')⟩, ?_, rfl⟩
  have newDigits' : env.takeDigits (new ++ (" @@".toList ++ text)) =
      some (Nat.toDigits 10 hunk.start2, newBehind) :=
    newDigits
  simp only [DigitEnv.matchHeader, opened, Option.bind_eq_bind, Option.bind_some, oldDigits,
    oldSize, middle, newDigits', newSize, closed]
  rfl

end MrAgent
