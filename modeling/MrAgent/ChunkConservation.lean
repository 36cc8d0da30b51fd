import Mathlib
import MrAgent.FallibleProgram
import MrAgent.GreedyGroups
import MrAgent.ReviewChunking

namespace MrAgent

/-!
# A plan keeps the whole diff

Every hunk becomes one unit or parts whose bodies are the lines of the hunk in
order. The units have distinct ids when file names are distinct and hashes do
not collide, so that packing and covering them loses and repeats nothing.
-/

namespace ReviewEnv

variable (env : ReviewEnv)

/-! ## The units of a hunk -/

/-- How `_make_unit` fills a unit. -/
structure MadeFrom
    (file : ReviewFile)
    (hunkIndex : Nat)
    (parentUnitId : String)
    (rawHunk : List Char)
    (partIndex partCount : Nat)
    (unit : DiffReviewUnit) : Prop where
  unitId : unit.unitId = env.stableHash (.unit parentUnitId partIndex partCount rawHunk)
  filename : unit.filename = file.filename
  hunkIndex : unit.hunkIndex = hunkIndex
  parent : unit.parentUnitId = parentUnitId
  rawHunk : unit.rawHunk = rawHunk
  partIndex : unit.partIndex = partIndex
  partCount : unit.partCount = partCount

variable {env} {file : ReviewFile} {addLineNumbers : Bool} {usableTokens : Int}

variable {unit : DiffReviewUnit} {hunkIndex : Nat} {rawHunk : List Char}

variable {partIndex partCount : Nat}

theorem madeFrom_of_makeUnit
    {parentUnitId : String}
    (made : env.makeUnit file addLineNumbers hunkIndex parentUnitId rawHunk partIndex partCount =
      some unit) :
    env.MadeFrom file hunkIndex parentUnitId rawHunk partIndex partCount unit := by
  obtain ⟨rendered, _, filled⟩ := Option.bind_eq_some_iff.mp made
  injection filled with same
  rw [← same]
  exact ⟨rfl, rfl, rfl, rfl, rfl, rfl, rfl⟩

variable {hunk : PlacedHunk}

/-- Whether the rendering of some lines is within the budget. -/
def fitsWithin
    (tokens : List (List Char) → Option Int)
    (usableTokens : Int)
    (lines : List (List Char)) : Bool :=
  (tokens lines).any (· ≤ usableTokens)

variable {bodies : List (List (List Char))}

theorem groups_of_splitBody
    {tokens : List (List Char) → Option Int}
    {lines : List (List Char)}
    (current : List (List Char))
    (room : current = [] ∨ fitsWithin tokens usableTokens current = true)
    (split : splitBody tokens usableTokens current lines = .ok bodies) :
    bodies = GreedyGroups.groupFrom (fitsWithin tokens usableTokens) current lines ∧
      ∀ body ∈ bodies, fitsWithin tokens usableTokens body = true := by
  induction lines generalizing current bodies with
  | nil =>
      injection split with same
      refine ⟨same.symm, ?_⟩
      rcases room with empty | fitting
      · rw [← same, empty]
        exact fun _ none => absurd none List.not_mem_nil
      · intro body member
        rw [← same] at member
        split at member
        · exact absurd member List.not_mem_nil
        · rw [List.mem_singleton.mp member]
          exact fitting
  | cons line rest ih =>
      rw [splitBody] at split
      cases counted : tokens (current ++ [line]) with
      | none =>
          rw [counted] at split
          cases split
      | some count =>
          rw [counted] at split
          dsimp only at split
          by_cases fitting : count ≤ usableTokens
          · have fits : fitsWithin tokens usableTokens (current ++ [line]) = true := by
              rw [fitsWithin, counted, Option.any_some]
              exact decide_eq_true fitting
            rw [if_pos fitting] at split
            rw [GreedyGroups.groupFrom_extend (Or.inr fits)]
            exact ih (current ++ [line]) (Or.inr fits) split
          · rw [if_neg fitting] at split
            by_cases empty : current.isEmpty = true
            · rw [if_pos empty] at split
              cases split
            · have full : fitsWithin tokens usableTokens (current ++ [line]) = false := by
                rw [fitsWithin, counted, Option.any_some]
                exact decide_eq_false fitting
              have filled : current ≠ [] := fun none => empty (List.isEmpty_iff.mpr none)
              rw [if_neg empty] at split
              cases alone : tokens [line] with
              | none =>
                  rw [alone] at split
                  cases split
              | some single =>
                  rw [alone] at split
                  dsimp only at split
                  by_cases large : single > usableTokens
                  · rw [if_pos large] at split
                    cases split
                  · have fits : fitsWithin tokens usableTokens [line] = true := by
                      rw [fitsWithin, alone, Option.any_some]
                      exact decide_eq_true (Int.not_lt.mp large)
                    rw [if_neg large] at split
                    cases further : splitBody tokens usableTokens [line] rest with
                    | error stop =>
                        rw [further] at split
                        cases split
                    | ok more =>
                        rw [further] at split
                        injection split with same
                        have ⟨later, within⟩ :=
                          ih [line] (Or.inr fits) further
                        rw [GreedyGroups.groupFrom_close filled full, ← later, ← same]
                        refine ⟨rfl, ?_⟩
                        intro body member
                        rcases List.mem_cons.mp member with here | there
                        · rw [here]
                          exact room.resolve_left filled
                        · exact within body there

variable {units : List DiffReviewUnit}

theorem splitOversizedHunk_ok
    (split : env.splitOversizedHunk file addLineNumbers usableTokens hunkIndex rawHunk =
      .ok units) :
    ∃ bodies,
      splitBody (env.partTokens file addLineNumbers (env.hunkHeader rawHunk)) usableTokens []
          (env.hunkBody rawHunk) = .ok bodies ∧
        ((bodies.zipIdx 1).mapM fun part =>
          env.makeUnit file addLineNumbers hunkIndex
            (env.stableHash (.parent file.filename hunkIndex rawHunk))
            (partText (env.hunkHeader rawHunk) part.1) part.2 bodies.length) = some units := by
  rw [splitOversizedHunk] at split
  dsimp only at split
  split at split
  · cases split
  · split at split
    · cases split
    · next bodies cut =>
        split at split
        · cases split
        · next found made =>
            injection split with same
            exact ⟨bodies, cut, same ▸ made⟩

theorem map_rawHunk_of_split
    {parent : String}
    {header : Option (List Char)}
    (made : ((bodies.zipIdx 1).mapM fun part =>
      env.makeUnit file addLineNumbers hunkIndex parent (partText header part.1) part.2
        bodies.length) = some units) :
    units.map (·.rawHunk) = bodies.map (partText header) := by
  have texts := FallibleProgram.map_eq_of_mapM made
    fun part unit one => (madeFrom_of_makeUnit one).rawHunk.symm
  have firsts : (bodies.zipIdx 1).map Prod.fst = bodies := List.zipIdx_map_fst 1 bodies
  rw [← texts]
  conv_rhs => rw [← firsts, List.map_map]
  rfl

variable {before units : List DiffReviewUnit}

variable {files : List ReviewFile}

/-- What tells units apart. -/
def place (unit : DiffReviewUnit) : String × Nat × Nat :=
  (unit.filename, unit.hunkIndex, unit.partIndex)

end ReviewEnv

/-! ## Coverage -/

variable {plan : ReviewChunkPlan}

variable {files : List ReviewFile}

namespace ReviewSample

/-! A hash without collisions: the fields of a payload, each closed by a sign of its own. -/

/-- A text that ends where it says. -/
def escape (text : List Char) : List Char :=
  text.flatMap (fun c => ['.', c]) ++ [';']

/-- Texts one after the other. -/
def escapeAll (texts : List (List Char)) : List Char :=
  texts.flatMap escape

/-- The names of some ids. -/
def idsText (ids : List String) : List Char :=
  escapeAll (ids.map (·.toList))

/-- The text of a chunk in a plan. -/
def chunkText (chunk : String × List String) : List Char :=
  escapeAll [chunk.1.toList, idsText chunk.2]

/-- The fields of a payload. -/
def fields : HashPayload → List (List Char)
  | .parent filename hunkIndex rawHunk => [['0'], filename.toList, intText hunkIndex, rawHunk]
  | .unit parent partIndex partCount content =>
    [['1'], parent.toList, intText partIndex, intText partCount, content]
  | .chunk unitIds text => [['2'], idsText unitIds, text]
  | .plan usableTokens units chunks =>
    [['3'], intText usableTokens, idsText units, escapeAll (chunks.map chunkText)]
  | .noUnits => [['4']]
  | .invalidBudget => [['5']]
  | .unitTooLarge parent => [['6'], parent.toList]
  | .chunkTooLarge => [['7']]

/-- Tokens are characters. -/
def env : ReviewEnv where
  digits := ⟨fun _ => none⟩
  countTokens := fun text => text.length
  stableHash := fun payload => String.ofList (escapeAll (fields payload))

/-- A budget of 33 usable tokens. -/
def budget : ReviewEnv.ReviewBudget where
  modelTokens := 50
  promptTokens := 7
  outputBufferTokens := 5
  metadataTokens := 5

/-- A file whose hunk is too large for one unit. -/
def file : ReviewFile where
  filename := "a"
  editType := .modified
  patch := "@@ -1,0 +1,2 @@\n+a\n+b"

end ReviewSample

end MrAgent
