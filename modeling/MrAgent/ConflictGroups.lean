import MrAgent.ParentForest
import MrAgent.RepairText

namespace MrAgent

/-!
# Conflicting suggestions

`deterministic_fix.py` looks for suggestions that collide when they are applied
together to one file: their ranges overlap or are close, both declare a member,
or both bring the same new identifier. `detect_conflict_groups` merges the pairs
with parent links and returns the groups by their positions.
-/

/-! ## Suggestions -/

/-- A suggestion, as the repair layer reads and writes it. -/
structure FixSuggestion where
  relevantFile : String
  /-- `relevant_lines_start` and `relevant_lines_end` as `int` reads them. -/
  linesStart : Option Int
  linesEnd : Option Int
  existingCode : String
  improvedCode : String
  structuralIssue : String := "none"
  companionFile : String := ""
  oneSentenceSummary : String := ""
  suggestionContent : String := ""
  resolvedByStage : String := ""
  /-- `_origin_id`. -/
  originId : Option Nat := none
deriving DecidableEq

/-- `str(sugg.get("relevant_file") or "").strip()`. -/
def FixSuggestion.file (suggestion : FixSuggestion) : List Char :=
  strip suggestion.relevantFile.toList

/-- The files of a merge request by their names, in the order of the dictionary. -/
abbrev HeadMap := List (List Char × String)

/-- `_head_for`. -/
def headFor (headMap : HeadMap) (relevantFile : List Char) : String :=
  if relevantFile = [] then ""
  else
    match headMap.find? (·.1 = relevantFile) with
    | some entry => entry.2
    | none =>
      match headMap.find? fun entry => relevantFile <:+ entry.1 || entry.1 <:+ relevantFile with
      | some entry => entry.2
      | none => ""

/-! ## Words -/

local instance lawfulWords : LawfulBEq (List Char) := inferInstance

/-- The characters beyond ASCII that `\w` matches. -/
structure WordEnv where
  foreignWord : Char → Bool

namespace WordEnv

variable (env : WordEnv)

/-- `\w`. -/
def isWord (c : Char) : Bool :=
  c.isAlphanum || c = '_' || (128 ≤ c.toNat && env.foreignWord c)

/-- The parts of a text between word boundaries that are made of `\w`. -/
def wordRuns (text : List Char) : List (List Char) :=
  (text.splitOnP fun c => !env.isWord c).filter (· ≠ [])

end WordEnv

/-- `[A-Za-z]\w*_` as a whole word. -/
def isTrailingMember (word : List Char) : Bool :=
  word.head?.any Char.isAlpha && word.length ≥ 2 && word.getLast? = some '_'

/-- `m_[A-Za-z]\w*` as a whole word. -/
def isPrefixedMember (word : List Char) : Bool :=
  match word with
  | 'm' :: '_' :: c :: _ => c.isAlpha
  | _ => false

namespace WordEnv

variable (env : WordEnv)

/-- `\b[A-Za-z]\w*_\s*;` -/
def declaresTrailingMember (line : List Char) : Bool :=
  (line.splitOn ';').dropLast.any fun piece =>
    isTrailingMember ((piece.rdropWhile isSpace).rtakeWhile env.isWord)

/-- `^\s*[\w:<>\*&,\s]+\s+[A-Za-z_]\w*\s*;\s*$` -/
def isSimpleDeclaration (line : List Char) : Bool :=
  let text := line.rdropWhile isSpace
  let declared := text.dropLast.rdropWhile isSpace
  let name := declared.rtakeWhile env.isWord
  let front := declared.rdropWhile env.isWord
  text.getLast? = some ';' && name.head?.any (fun c => c.isAlpha || c = '_') &&
    front.length ≥ 2 && front.getLast?.any isSpace &&
    front.all fun c => env.isWord c || isSpace c || c ∈ [':', '<', '>', '*', '&', ',']

/-- `_is_new_declaration`. -/
def isNewDeclaration (code : String) : Bool :=
  (splitLines code).any fun line =>
    !('(' ∈ line || ')' ∈ line) &&
      (env.declaresTrailingMember line || (env.wordRuns line).any isPrefixedMember ||
        env.isSimpleDeclaration line)

/-- `_new_identifiers`. -/
def newIdentifiers (code headFile : String) : List (List Char) :=
  (env.wordRuns code.toList).filter fun word =>
    (isTrailingMember word || isPrefixedMember word) && word ∉ env.wordRuns headFile.toList

end WordEnv

/-! ## Pairs -/

/-- `_lines_overlap_or_adjacent`. -/
def linesOverlapOrAdjacent (first second : FixSuggestion) (adjacency : Int) : Bool :=
  match first.linesStart, first.linesEnd, second.linesStart, second.linesEnd with
  | some firstStart, some firstEnd, some secondStart, some secondEnd =>
    if firstStart ≤ secondEnd ∧ secondStart ≤ firstEnd then true
    else (min (firstStart - secondEnd).natAbs (secondStart - firstEnd).natAbs : Int) ≤ adjacency
  | _, _, _, _ => false

/-- `_conflict_pair`. -/
def WordEnv.conflictPair
    (env : WordEnv)
    (first second : FixSuggestion)
    (headFile : String)
    (adjacency : Int) : Bool :=
  if first.originId.isSome && first.originId = second.originId then false
  else if linesOverlapOrAdjacent first second adjacency then true
  else if env.isNewDeclaration first.improvedCode && env.isNewDeclaration second.improvedCode then
    true
  else (env.newIdentifiers first.improvedCode headFile).any
    (· ∈ env.newIdentifiers second.improvedCode headFile)

/-! ## Groups -/

/-- The pairs of two elements in the order of two nested loops. -/
def orderedPairs {α : Type} : List α → List (α × α)
  | [] => []
  | first :: rest => rest.map (first, ·) ++ orderedPairs rest

/-- The variables of the loops over pairs. -/
structure PairScan where
  parent : Nat → Nat := id
  hasEdge : Nat → Bool := fun _ => false

/-- The body of the loops over pairs. -/
def PairScan.step
    (fuel : Nat)
    (conflict : Nat → Nat → Bool)
    (scan : PairScan)
    (pair : Nat × Nat) : PairScan :=
  if conflict pair.1 pair.2 then
    { parent := ParentForest.union fuel scan.parent pair.1 pair.2
      hasEdge := Function.update (Function.update scan.hasEdge pair.2 true) pair.1 true }
  else scan

/-- A search takes fewer steps than there are pairs. -/
def searchFuel (indices : List Nat) : Nat :=
  (orderedPairs indices).length + 1

/-- The loops over the pairs of one file. -/
def fileScan (conflict : Nat → Nat → Bool) (indices : List Nat) : PairScan :=
  (orderedPairs indices).foldl (PairScan.step (searchFuel indices) conflict) {}

/-- The groups of one file. -/
def fileGroups (conflict : Nat → Nat → Bool) (indices : List Nat) : List (List Nat) :=
  let scan := fileScan conflict indices
  let comps := ParentForest.collect (searchFuel indices) scan.parent
    (indices.filter scan.hasEdge) []
  ((comps.map (·.2)).filter (2 ≤ ·.length)).map (·.insertionSort (· ≤ ·))

/-- The file of the suggestion at a position. -/
def fileAt (suggestions : List FixSuggestion) (index : Nat) : List Char :=
  (suggestions[index]?.map (·.file)).getD []

/-- Whether the suggestions at two positions conflict in a file. -/
def WordEnv.conflictAt
    (env : WordEnv)
    (headFile : String)
    (adjacency : Int)
    (suggestions : List FixSuggestion)
    (first second : Nat) : Bool :=
  match suggestions[first]?, suggestions[second]? with
  | some a, some b => env.conflictPair a b headFile adjacency
  | _, _ => false

/-- `detect_conflict_groups`. -/
def WordEnv.detectConflictGroups
    (env : WordEnv)
    (headMap : HeadMap)
    (adjacency : Int)
    (suggestions : List FixSuggestion) : List (List Nat) :=
  let named := (List.range suggestions.length).filter fun index => fileAt suggestions index ≠ []
  let byFile := GroupedList.groupOn (fileAt suggestions) named
  let groups := byFile.flatMap fun entry =>
    if entry.2.length < 2 then []
    else fileGroups (env.conflictAt (headFor headMap entry.1) adjacency suggestions) entry.2
  groups.insertionSort fun first second => first.headD 0 ≤ second.headD 0

end MrAgent
