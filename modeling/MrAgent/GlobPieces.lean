import Mathlib

namespace GlobPieces

/-!
# Globs as pieces

A glob is a list of pieces, each of which reads a part of a path. A glob matches
a path when the pieces, one after another, read all of it.
-/

inductive Piece where
  /-- `**` at the end of a part: any characters but line feeds. -/
  | anything
  /-- `**` with a slash: nothing, or any characters but line feeds up to a slash. -/
  | directories
  /-- `*`: any characters but slashes. -/
  | segment
  /-- `?`: one character but a slash. -/
  | one
  | literal (c : Char)
deriving DecidableEq

/-- The pieces of a glob. -/
def pieces : List Char → List Piece
  | [] => []
  | '*' :: '*' :: '/' :: rest => .directories :: pieces rest
  | '*' :: '*' :: rest => .anything :: pieces rest
  | '*' :: rest => .segment :: pieces rest
  | '?' :: rest => .one :: pieces rest
  | c :: rest => .literal c :: pieces rest

/-- What may be left behind a run of some characters. -/
def behindRun (inRun : Char → Bool) : List Char → List (List Char)
  | [] => [[]]
  | c :: rest => (c :: rest) :: if inRun c then behindRun inRun rest else []

/-- What is left behind a slash. -/
def behindSlash : List Char → Option (List Char)
  | '/' :: rest => some rest
  | _ => none

/-- What may be left of a text behind a piece. -/
def Piece.behind : Piece → List Char → List (List Char)
  | .anything, text => behindRun (· ≠ '\n') text
  | .directories, text => text :: (behindRun (· ≠ '\n') text).filterMap behindSlash
  | .segment, text => behindRun (· ≠ '/') text
  | .one, c :: rest => if c ≠ '/' then [rest] else []
  | .literal a, c :: rest => if c = a then [rest] else []
  | _, [] => []

/-- Whether the pieces read all of a text. -/
def readAll : List Piece → List Char → Bool
  | [], text => text = []
  | piece :: more, text => (piece.behind text).any (readAll more)

/-! ## A path that is too deep -/

/-- Directories that are named by line feeds. -/
def lineFeeds : Nat → List Char
  | 0 => ['\n']
  | depth + 1 => '\n' :: '/' :: lineFeeds depth

/-- At least so many of the directories are left. -/
def Deep (depth : Nat) (text : List Char) : Prop :=
  ∃ left, depth ≤ left ∧ (text = lineFeeds left ∨ text = '/' :: lineFeeds left)

variable {depth : Nat}

variable {text : List Char}

theorem Deep.ne_nil
    (deep : Deep depth text) :
    text ≠ [] := by
  obtain ⟨left, _, rfl | rfl⟩ := deep
  · cases left <;> exact List.cons_ne_nil _ _
  · exact List.cons_ne_nil _ _

theorem Deep.behind
    {piece : Piece}
    {text rest : List Char}
    (deep : Deep (depth + 1) text)
    (read : rest ∈ piece.behind text) :
    Deep depth rest := by
  obtain ⟨left, below, shape⟩ := deep
  obtain ⟨left, rfl⟩ := Nat.exists_eq_succ_of_ne_zero (Nat.ne_zero_of_lt below)
  have behindLineFeed : Deep depth ('/' :: lineFeeds left) := ⟨left, by omega, Or.inr rfl⟩
  have behindSlash : Deep depth (lineFeeds (left + 1)) := ⟨left + 1, by omega, Or.inl rfl⟩
  have whole : Deep depth text := ⟨left + 1, by omega, shape⟩
  rcases shape with rfl | rfl
  · cases piece with
    | anything =>
        simp [Piece.behind, behindRun, lineFeeds] at read
        exact read ▸ whole
    | directories =>
        simp [Piece.behind, behindRun, lineFeeds, GlobPieces.behindSlash] at read
        exact read ▸ whole
    | segment =>
        simp [Piece.behind, behindRun, lineFeeds] at read
        rcases read with rfl | rfl
        · exact whole
        · exact behindLineFeed
    | one =>
        simp [Piece.behind, lineFeeds] at read
        exact read ▸ behindLineFeed
    | literal a =>
        simp [Piece.behind, lineFeeds] at read
        exact read.2 ▸ behindLineFeed
  · cases piece with
    | anything =>
        simp [Piece.behind, behindRun, lineFeeds] at read
        rcases read with rfl | rfl
        · exact whole
        · exact behindSlash
    | directories =>
        simp [Piece.behind, behindRun, lineFeeds, GlobPieces.behindSlash] at read
        rcases read with rfl | rfl
        · exact whole
        · exact behindSlash
    | segment =>
        simp [Piece.behind, behindRun] at read
        exact read ▸ whole
    | one => simp [Piece.behind] at read
    | literal a =>
        simp [Piece.behind] at read
        exact read.2 ▸ behindSlash

theorem not_readAll_of_deep
    {globPieces : List Piece}
    (long : globPieces.length ≤ depth)
    (deep : Deep depth text) :
    readAll globPieces text = false := by
  induction globPieces generalizing depth text with
  | nil => exact decide_eq_false deep.ne_nil
  | cons piece more ih =>
      obtain ⟨depth, rfl⟩ := Nat.exists_eq_succ_of_ne_zero
        (Nat.ne_zero_of_lt (Nat.lt_of_lt_of_le (Nat.succ_pos more.length) long))
      refine List.any_eq_false.mpr fun rest read => ?_
      rw [ih (Nat.le_of_succ_le_succ long) (deep.behind read)]
      exact Bool.false_ne_true

theorem length_pieces_le
    (glob : List Char) :
    (pieces glob).length ≤ glob.length := by
  induction glob using pieces.induct with
  | case1 => exact Nat.le_refl 0
  | _ => simp only [pieces, List.length_cons]; omega

end GlobPieces
