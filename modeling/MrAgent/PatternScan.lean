import Mathlib

namespace MrAgent.PatternScan

/-!
# Substituting a pattern in a text

A text is scanned from the left: where the pattern is found, its match is
replaced and the scan goes on behind it. The scan cuts the text into kept
characters and matches.
-/

/-- A pattern, which may look at the character in front, and what replaces its matches. -/
structure Rule (α : Type) where
  find : Option Char → List Char → Option α
  source : α → List Char
  output : α → List Char
  sound : ∀ before text found, find before text = some found →
    source found ≠ [] ∧ source found <+: text

namespace Rule

variable {α : Type} (rule : Rule α)

/-- The pieces of a text behind a character; `skip` characters belong to the last match. -/
def scanFrom : Nat → Option Char → List Char → List (Char ⊕ α)
  | _, _, [] => []
  | skip + 1, _, c :: rest => scanFrom skip (some c) rest
  | 0, before, c :: rest =>
    match rule.find before (c :: rest) with
    | none => .inl c :: scanFrom 0 (some c) rest
    | some found => .inr found :: scanFrom ((rule.source found).length - 1) (some c) rest

def scan (text : List Char) : List (Char ⊕ α) :=
  rule.scanFrom 0 none text

/-- What a piece was. -/
def read : Char ⊕ α → List Char :=
  Sum.elim ([·]) rule.source

/-- What a piece becomes. -/
def written : Char ⊕ α → List Char :=
  Sum.elim ([·]) rule.output

/-- `re.sub`. -/
def sub (text : List Char) : List Char :=
  (rule.scan text).flatMap rule.written

variable {text : List Char}

variable {found : α}

/-- A match is whole; only at the end of the text may it be cut. -/
def Whole (text : List Char) (whole cut : α → Prop) : Prop :=
  (∀ found, .inr found ∈ (rule.scan text).dropLast → whole found) ∧
    ∀ found, (rule.scan text).getLast? = some (.inr found) → whole found ∨ cut found

end Rule

/-- A pattern that is given by the length of its match. -/
def Rule.ofSize (size : List Char → Option Nat) (output : List Char) : Rule (List Char) where
  find _ text :=
    match size text, text with
    | some (length + 1), c :: rest => some (c :: rest.take length)
    | _, _ => none
  source := id
  output _ := output
  sound := by
    intro _ text found isFound
    split at isFound
    · cases isFound
      exact ⟨List.cons_ne_nil _ _, (List.prefix_cons_inj _).mpr (List.take_prefix _ _)⟩
    · cases isFound

end MrAgent.PatternScan
