import MrAgent.RepairText

namespace MrAgent

/-!
# Lines of a text

`str.splitlines` cuts a text at every line break of Python. Lines without such
a character are found again whatever ends them, and no line that is found
contains one.
-/

/-- Whether a line stays one line when it is split. -/
def unbroken (line : List Char) : Bool :=
  line.all fun c => !isLineBreak c

/-- The end of a line, with or without a carriage return. -/
def lineEnd (withReturn : Bool) : List Char :=
  if withReturn then ['\r', '\n'] else ['\n']

@[simp]
theorem unbroken_cons
    (c : Char)
    (line : List Char) :
    unbroken (c :: line) = (!isLineBreak c && unbroken line) := by
  rw [unbroken, List.all_cons]
  rfl

@[simp]
theorem unbroken_reverse
    (line : List Char) :
    unbroken line.reverse = unbroken line :=
  List.all_reverse

variable {c : Char}

theorem splitLinesFrom_cons
    (plain : isLineBreak c = false)
    (line rest : List Char) :
    splitLinesFrom line (c :: rest) = splitLinesFrom (c :: line) rest := by
  rw [splitLinesFrom.eq_def]
  split
  case h_1 impossible => cases impossible
  case h_2 impossible => cases impossible
  case h_3 same =>
      injection same with head
      rw [head] at plain
      exact absurd plain (by decide)
  case h_4 same =>
      injection same with head tail
      rw [← head, ← tail, plain]
      rfl

theorem splitLinesFrom_break
    (broken : isLineBreak c = true)
    (notReturn : c ≠ '\r')
    (line rest : List Char) :
    splitLinesFrom line (c :: rest) = line.reverse :: splitLinesFrom [] rest := by
  rw [splitLinesFrom.eq_def]
  split
  case h_1 impossible => cases impossible
  case h_2 impossible => cases impossible
  case h_3 same =>
      injection same with head
      exact absurd head notReturn
  case h_4 same =>
      injection same with head tail
      rw [← head, ← tail, broken]
      rfl

theorem splitLinesFrom_return
    {rest : List Char}
    (alone : rest.head? ≠ some '\n')
    (line : List Char) :
    splitLinesFrom line ('\r' :: rest) = line.reverse :: splitLinesFrom [] rest := by
  rw [splitLinesFrom.eq_def]
  split
  case h_1 impossible => cases impossible
  case h_2 impossible => cases impossible
  case h_3 same =>
      injection same with _ tail
      rw [tail] at alone
      exact absurd rfl alone
  case h_4 same =>
      injection same with head tail
      rw [← head, ← tail]
      rfl

variable {line : List Char}

theorem splitLinesFrom_append
    (plain : unbroken line = true)
    (start rest : List Char) :
    splitLinesFrom start (line ++ rest) = splitLinesFrom (line.reverse ++ start) rest := by
  induction line generalizing start with
  | nil =>
      rfl
  | cons c line ih =>
      rw [unbroken_cons, Bool.and_eq_true, Bool.not_eq_true'] at plain
      rw [List.cons_append, splitLinesFrom_cons plain.1, ih plain.2,
        List.reverse_cons, List.append_assoc, List.singleton_append]

theorem splitLinesFrom_lineEnd
    (plain : unbroken line = true)
    (withReturn : Bool)
    (rest : List Char) :
    splitLinesFrom [] (line ++ (lineEnd withReturn ++ rest)) =
      line :: splitLinesFrom [] rest := by
  rw [splitLinesFrom_append plain, List.append_nil]
  cases withReturn with
  | false =>
      have broken := splitLinesFrom_break (c := '\n') (by decide) (by decide) line.reverse rest
      rw [List.reverse_reverse] at broken
      exact broken
  | true =>
      change splitLinesFrom line.reverse ('\r' :: '\n' :: rest) = _
      rw [splitLinesFrom.eq_3, List.reverse_reverse]

theorem splitLinesFrom_last
    (plain : unbroken line = true)
    (filled : line ≠ []) :
    splitLinesFrom [] line = [line] := by
  have read := splitLinesFrom_append plain [] []
  rw [List.append_nil, List.append_nil] at read
  rw [read]
  cases same : line.reverse with
  | nil =>
      exact absurd (List.reverse_eq_nil_iff.mp same) filled
  | cons c rest =>
      rw [splitLinesFrom, ← same, List.reverse_reverse]
      exact fun empty => List.cons_ne_nil c rest empty

theorem splitLinesFrom_intercalate
    {lines : List (List Char)}
    (plain : ∀ line ∈ lines, unbroken line = true) :
    splitLinesFrom [] (List.intercalate ['\n'] lines) =
      if lines.getLast? = some [] then lines.dropLast else lines := by
  induction lines with
  | nil =>
      rfl
  | cons line rest ih =>
      have whole := plain line List.mem_cons_self
      have further := ih
        fun other member => plain other (List.mem_cons_of_mem _ member)
      cases rest with
      | nil =>
          rw [List.intercalate_singleton]
          by_cases empty : line = []
          · rw [empty]
            rfl
          · rw [splitLinesFrom_last whole empty]
            simp [empty]
      | cons next rest =>
          have first := splitLinesFrom_lineEnd whole false (List.intercalate ['\n'] (next :: rest))
          rw [further] at first
          rw [List.intercalate_cons_cons, List.append_assoc, List.getLast?_cons_cons,
            List.dropLast_cons_of_ne_nil (List.cons_ne_nil next rest)]
          refine first.trans ?_
          split <;> rfl

theorem splitLinesFrom_eq_nil
    {start text : List Char}
    (none : splitLinesFrom start text = []) :
    start = [] ∧ text = [] := by
  induction start, text using splitLinesFrom.induct with
  | case1 =>
      exact ⟨rfl, rfl⟩
  | case2 start filled =>
      rw [splitLinesFrom] at none
      · cases none
      · exact filled
  | case3 start rest _ =>
      rw [splitLinesFrom] at none
      cases none
  | case4 start c rest notPair broken _ =>
      rw [splitLinesFrom, if_pos broken] at none
      · cases none
      · exact notPair
  | case5 start c rest notPair plain ih =>
      rw [splitLinesFrom, if_neg plain] at none
      · exact absurd (ih none).1 (List.cons_ne_nil _ _)
      · exact notPair

theorem unbroken_of_mem_splitLinesFrom
    {start text line : List Char}
    (plain : unbroken start = true)
    (member : line ∈ splitLinesFrom start text) :
    unbroken line = true := by
  induction start, text using splitLinesFrom.induct with
  | case1 =>
      exact absurd member List.not_mem_nil
  | case2 start filled =>
      rw [splitLinesFrom] at member
      · rw [List.mem_singleton.mp member, unbroken_reverse]
        exact plain
      · exact filled
  | case3 start rest ih =>
      rw [splitLinesFrom] at member
      rcases List.mem_cons.mp member with here | later
      · rw [here, unbroken_reverse]
        exact plain
      · exact ih rfl later
  | case4 start c rest notPair broken ih =>
      rw [splitLinesFrom, if_pos broken] at member
      · rcases List.mem_cons.mp member with here | later
        · rw [here, unbroken_reverse]
          exact plain
        · exact ih rfl later
      · exact notPair
  | case5 start c rest notPair unbrokenHere ih =>
      rw [splitLinesFrom, if_neg unbrokenHere] at member
      · rw [Bool.not_eq_true] at unbrokenHere
        refine ih ?_ member
        rw [unbroken_cons, unbrokenHere, plain]
        rfl
      · exact notPair

theorem unbroken_of_mem_splitLines
    {text : String}
    (member : line ∈ splitLines text) :
    unbroken line = true :=
  unbroken_of_mem_splitLinesFrom rfl member

end MrAgent
