import Mathlib
import MrAgent.BrokerModel

namespace MrAgent

/-!
# Stripped and cut texts

Texts are stripped and cut to a length before they are stored, and once more
when they are read back.
-/

theorem strip_eq_rdropWhile (text : List Char) :
    strip text = (text.dropWhile isSpace).rdropWhile isSpace :=
  rfl

theorem strip_strip (text : List Char) : strip (strip text) = strip text := by
  have headless :
      ((text.dropWhile isSpace).rdropWhile isSpace).dropWhile isSpace =
        (text.dropWhile isSpace).rdropWhile isSpace := by
    cases kept : (text.dropWhile isSpace).rdropWhile isSpace with
    | nil =>
        rfl
    | cons first rest =>
        obtain ⟨cut, split⟩ := List.rdropWhile_prefix isSpace (text.dropWhile isSpace)
        have head := List.head?_dropWhile_not isSpace text
        rw [← split, kept] at head
        exact List.dropWhile_cons_of_neg (by simpa using head)
  rw [strip_eq_rdropWhile, strip_eq_rdropWhile, headless, List.rdropWhile_idempotent]

variable {text : List Char} {c : Char}

theorem isSpace_getLast_strip
    (last : (strip text).getLast? = some c) :
    isSpace c = false := by
  have same : strip text = (text.dropWhile isSpace).rdropWhile isSpace := rfl
  rw [same] at last
  obtain ⟨init, split⟩ := List.getLast?_eq_some_iff.mp last
  have nonempty : (text.dropWhile isSpace).rdropWhile isSpace ≠ [] := by
    rw [split]
    simp
  have clean := List.rdropWhile_last_not isSpace _ nonempty
  simp only [split, List.getLast_concat] at clean
  simpa using clean

theorem isSpace_of_strip_eq_nil
    (blank : strip text = [])
    (member : c ∈ text) :
    isSpace c = true := by
  rw [strip, List.reverse_eq_nil_iff, List.dropWhile_eq_nil_iff] at blank
  have start := List.head?_dropWhile_not isSpace text
  cases same : text.dropWhile isSpace with
  | nil => exact List.dropWhile_eq_nil_iff.mp same c member
  | cons d rest =>
      rw [same, List.head?_cons] at start
      have space := blank d (by rw [same]; exact List.mem_reverse.mpr List.mem_cons_self)
      rw [start] at space
      cases space

end MrAgent
