import MrAgent.RepairText

namespace MrAgent

/-!
# Hunk headers

`git_patch_processing.py` reads the lines of a unified diff and recognises a
hunk header by one regular expression. Numbers are read with `\d` and `int`,
which know the decimal digits of every script; those beyond ASCII are a
parameter.
-/

/-- The value of a decimal digit beyond ASCII. -/
structure DigitEnv where
  foreignDigit : Char → Option Nat

namespace DigitEnv

variable (env : DigitEnv)

/-- The value of a character that `\d` matches. -/
def digit (c : Char) : Option Nat :=
  if c.isDigit then some (c.toNat - '0'.toNat)
  else if c.toNat < 128 then none
  else env.foreignDigit c

/-- `int` of some decimal digits. -/
def number (digits : List Char) : Nat :=
  digits.foldl (fun value c => value * 10 + (env.digit c).getD 0) 0

/-- `(\d+)`: the digits and the rest of the line. -/
def takeDigits (line : List Char) : Option (List Char × List Char) :=
  let digits := line.takeWhile fun c => (env.digit c).isSome
  if digits = [] then none
  else some (digits, line.drop digits.length)

/-- `(?:,(\d+))?` -/
def takeSize (line : List Char) : Option (List Char) × List Char :=
  match line with
  | ',' :: more =>
    match env.takeDigits more with
    | some (digits, rest) => (some digits, rest)
    | none => (none, line)
  | _ => (none, line)

end DigitEnv

/-- The groups of a match of `RE_HUNK_HEADER`. -/
structure HeaderMatch where
  start1 : List Char
  size1 : Option (List Char)
  start2 : List Char
  size2 : Option (List Char)
  section_ : List Char

/-- A text behind a start that it has to have. -/
def afterStart (start line : List Char) : Option (List Char) :=
  if start <+: line then some (line.drop start.length) else none

namespace DigitEnv

variable (env : DigitEnv)

/-- `RE_HUNK_HEADER.match`. -/
def matchHeader (line : List Char) : Option HeaderMatch := do
  let old ← env.takeDigits (← afterStart "@@ -".toList line)
  let oldSize := env.takeSize old.2
  let new ← env.takeDigits (← afterStart " +".toList oldSize.2)
  let newSize := env.takeSize new.2
  let rest ← afterStart " @@".toList newSize.2
  let text := (afterStart [' '] rest).getD rest
  return ⟨old.1, oldSize.1, new.1, newSize.1, text.takeWhile (· ≠ '\n')⟩

end DigitEnv

/-- Whether a line starts with `@@`. -/
def startsHeader (line : List Char) : Bool :=
  ['@', '@'] <+: line

theorem startsHeader_of_matchHeader
    {env : DigitEnv}
    {line : List Char}
    (matched : (env.matchHeader line).isSome) :
    startsHeader line = true := by
  have opened : "@@ -".toList <+: line := by
    by_contra missing
    have unmatched : afterStart "@@ -".toList line = none := if_neg missing
    rw [DigitEnv.matchHeader, unmatched] at matched
    exact Bool.false_ne_true matched
  have short : ['@', '@'] <+: "@@ -".toList := by
    decide
  simpa [startsHeader] using short.trans opened

end MrAgent
