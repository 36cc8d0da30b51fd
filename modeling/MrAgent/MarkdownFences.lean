import Mathlib

namespace MrAgent.MarkdownFences

/-!
# Fenced blocks of a text

A fence is a run of at least three marks. The block that it opens lasts until
the first later line that holds at least as many of the marks and nothing else,
or until the end of the text.
-/

/-- The marks that open a block. -/
structure Fence where
  mark : Char
  size : Nat
deriving DecidableEq

/-- A block: what stands behind its opening marks, and its lines. -/
structure FencedBlock where
  info : List Char
  lines : List (List Char)
deriving DecidableEq

def isBlank (c : Char) : Bool :=
  c = ' ' || c = '\t' || c = '\r'

/-- The line without its indentation; four spaces are no indentation of a fence. -/
def unindented (line : List Char) : List Char :=
  if 3 < (line.takeWhile (· = ' ')).length then line else line.dropWhile (· = ' ')

/-- The fence that a line opens, and what stands behind it. -/
def opening (line : List Char) : Option (Fence × List Char) :=
  match unindented line with
  | [] => none
  | mark :: rest =>
    let size := ((mark :: rest).takeWhile (· = mark)).length
    let info := (mark :: rest).dropWhile (· = mark)
    if mark ∈ ['`', '~'] ∧ 3 ≤ size ∧ (mark = '`' → '`' ∉ info) then
      some (⟨mark, size⟩, info)
    else none

/-- The line closes the block of a fence. -/
def Fence.closedBy (fence : Fence) (line : List Char) : Bool :=
  let text := unindented line
  fence.size ≤ (text.takeWhile (· = fence.mark)).length &&
    (text.dropWhile (· = fence.mark)).all isBlank

/-- What is known behind some lines of a text. -/
structure Reading where
  blocks : List FencedBlock := []
  current : Option (Fence × FencedBlock) := none
deriving DecidableEq

namespace Reading

/-- The next line. -/
def step (reading : Reading) (line : List Char) : Reading :=
  match reading.current with
  | none =>
    match opening line with
    | none => reading
    | some (fence, info) => { reading with current := some (fence, ⟨info, []⟩) }
  | some (fence, block) =>
    if fence.closedBy line then { blocks := reading.blocks ++ [block], current := none }
    else { reading with current := some (fence, { block with lines := block.lines ++ [line] }) }

/-- The end of the text ends the last block. -/
def finish (reading : Reading) : List FencedBlock :=
  reading.blocks ++ (reading.current.map (·.2)).toList

def read (reading : Reading) (lines : List (List Char)) : Reading :=
  lines.foldl step reading

end Reading

/-- The fenced blocks among some lines. -/
def fencedBlocks (lines : List (List Char)) : List FencedBlock :=
  (Reading.read {} lines).finish

namespace Reading

variable {reading : Reading} {fence : Fence} {block : FencedBlock}

@[simp]
theorem read_append
    (reading : Reading)
    (first second : List (List Char)) :
    reading.read (first ++ second) = (reading.read first).read second :=
  List.foldl_append

@[simp]
theorem read_cons
    (reading : Reading)
    (line : List Char)
    (rest : List (List Char)) :
    reading.read (line :: rest) = (reading.step line).read rest :=
  rfl

theorem step_blocks
    (known : List FencedBlock)
    (reading : Reading)
    (line : List Char) :
    step { reading with blocks := known ++ reading.blocks } line =
      { reading.step line with blocks := known ++ (reading.step line).blocks } := by
  obtain ⟨blocks, current⟩ := reading
  cases current with
  | none =>
      simp only [step]
      split <;> rfl
  | some opened =>
      simp only [step]
      split
      · simp
      · rfl

theorem read_blocks
    (known : List FencedBlock)
    (reading : Reading)
    (lines : List (List Char)) :
    read { reading with blocks := known ++ reading.blocks } lines =
      { reading.read lines with blocks := known ++ (reading.read lines).blocks } := by
  induction lines generalizing reading with
  | nil => rfl
  | cons line rest ih =>
      rw [read_cons, step_blocks, ih, read_cons]

theorem finish_read_closed
    (closed : reading.current = none)
    (lines : List (List Char)) :
    (reading.read lines).finish = reading.blocks ++ fencedBlocks lines := by
  have alone := read_blocks reading.blocks {} lines
  obtain ⟨blocks, current⟩ := reading
  obtain rfl : current = none := closed
  rw [List.append_nil] at alone
  rw [alone, fencedBlocks, finish, finish, List.append_assoc]

theorem read_open
    (opened : reading.current = some (fence, block))
    {lines : List (List Char)}
    (inside : ∀ line ∈ lines, fence.closedBy line = false) :
    reading.read lines =
      { reading with current := some (fence, { block with lines := block.lines ++ lines }) } := by
  induction lines generalizing reading block with
  | nil =>
      rw [List.append_nil, ← opened]
      rfl
  | cons line rest ih =>
      rw [List.forall_mem_cons] at inside
      have here : reading.step line = { reading with
          current := some (fence, { block with lines := block.lines ++ [line] }) } := by
        simp [step, opened, inside.1]
      rw [read_cons, here, ih rfl inside.2]
      simp

theorem read_close
    (opened : reading.current = some (fence, block))
    {lines : List (List Char)}
    (inside : ∀ line ∈ lines, fence.closedBy line = false)
    {line : List Char}
    (closes : fence.closedBy line = true) :
    reading.read (lines ++ [line]) =
      { blocks := reading.blocks ++ [{ block with lines := block.lines ++ lines }],
        current := none } := by
  rw [read_append, read_open opened inside]
  simp [read, step, closes]

theorem finish_closed
    (closed : reading.current = none) :
    reading.finish = reading.blocks := by
  rw [finish, closed]
  exact List.append_nil _

theorem step_opening
    (closed : reading.current = none)
    {line info : List Char}
    (opens : opening line = some (fence, info)) :
    reading.step line = { reading with current := some (fence, ⟨info, []⟩) } := by
  simp [step, closed, opens]

end Reading

section Block

variable {before content after : List (List Char)} {line mark info : List Char} {fence : Fence}

theorem fencedBlocks_block
    (closed : (Reading.read {} before).current = none)
    (opens : opening line = some (fence, info))
    (inside : ∀ line ∈ content, fence.closedBy line = false)
    (closes : fence.closedBy mark = true) :
    fencedBlocks (before ++ line :: (content ++ mark :: after)) =
      fencedBlocks before ++ ⟨info, content⟩ :: fencedBlocks after := by
  let front := Reading.read {} before
  have lines : before ++ line :: (content ++ mark :: after) =
      before ++ line :: (content ++ [mark] ++ after) := by simp
  have block := @Reading.read_close { front with current := some (fence, ⟨info, []⟩) } fence
    ⟨info, []⟩ rfl content inside mark closes
  have known : fencedBlocks before = front.blocks := Reading.finish_closed closed
  rw [lines, fencedBlocks, Reading.read_append, Reading.read_cons,
    Reading.step_opening closed opens, Reading.read_append, block,
    Reading.finish_read_closed rfl, known]
  simp

theorem fencedBlocks_cut
    (closed : (Reading.read {} before).current = none)
    (opens : opening line = some (fence, info))
    (cut : ∃ line ∈ content, fence.closedBy line = true) :
    ∃ front, front.length < content.length ∧ ∃ later,
      fencedBlocks (before ++ line :: (content ++ after)) =
        fencedBlocks before ++ ⟨info, front⟩ :: later := by
  obtain ⟨mark, first⟩ := Option.isSome_iff_exists.mp (List.find?_isSome.mpr cut)
  obtain ⟨closes, front, rest, rfl, inside⟩ := List.find?_eq_some_iff_append.mp first
  have plain : ∀ line ∈ front, fence.closedBy line = false := by
    simpa using inside
  refine ⟨front, by simp, fencedBlocks (rest ++ after), ?_⟩
  rw [← fencedBlocks_block closed opens plain closes, List.append_assoc, List.cons_append]

end Block

end MrAgent.MarkdownFences
