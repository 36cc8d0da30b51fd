import MrAgent.WrittenHunks

namespace MrAgent

/-!
# Plans for large reviews

`review_chunking.py` cuts the hunks of a diff into units that fit a token
budget, packs the units into chunks in order and reports which units a set of
successful chunks has covered. Hashes, the token counter and the digits that
`\d` knows beyond ASCII are parameters.
-/

/-! ## Data -/

/-- A payload of `_stable_hash`; the constructors have different keys. -/
inductive HashPayload where
  | parent (filename : String) (hunkIndex : Nat) (rawHunk : List Char)
  | unit (parent : String) (partIndex partCount : Nat) (content : List Char)
  | chunk (unitIds : List String) (text : List Char)
  | plan (usableTokens : Int) (units : List String) (chunks : List (String × List String))
  | noUnits
  | invalidBudget
  | unitTooLarge (parent : String)
  | chunkTooLarge
deriving DecidableEq

/-- What the planner calls. -/
structure ReviewEnv where
  digits : DigitEnv
  countTokens : List Char → Int
  stableHash : HashPayload → String

/-- A changed file; a missing patch is empty. -/
structure ReviewFile where
  filename : String
  editType : EditType
  patch : String

/-- What the converter reads of a file. -/
def ReviewFile.info (file : ReviewFile) : PatchFile :=
  ⟨file.filename, file.editType⟩

/-- `_edit_type_name` -/
def EditType.name : EditType → String
  | .added => "added"
  | .deleted => "deleted"
  | .modified => "modified"
  | .renamed => "renamed"
  | .unknown => "unknown"

/-- `DiffReviewUnit`. -/
structure DiffReviewUnit where
  unitId : String
  parentUnitId : String
  filename : String
  editType : String
  hunkIndex : Nat
  partIndex : Nat
  partCount : Nat
  rawHunk : List Char
  rawText : List Char
  text : List Char
  tokens : Int
deriving DecidableEq

/-- `ReviewChunk`. -/
structure ReviewChunk where
  chunkId : String
  unitIds : List String
  text : List Char
  rawText : List Char
  tokens : Int
deriving DecidableEq

/-- `"\n".join(lines)` -/
def joinLines (lines : List (List Char)) : List Char :=
  List.intercalate ['\n'] lines

/-- `\s+` -/
def takeSpaces (line : List Char) : Option (List Char) :=
  if line.head?.any isSpace then some (line.dropWhile isSpace) else none

/-- `_HUNK_HEADER.match` -/
def isHunkHeader (env : DigitEnv) (line : List Char) : Bool :=
  Option.isSome do
    let old ← env.takeDigits
      (← afterStart ['-'] (← takeSpaces (← afterStart ['@', '@'] line)))
    let new ← env.takeDigits (← afterStart ['+'] (← takeSpaces (env.takeSize old.2).2))
    afterStart ['@', '@'] (← takeSpaces (env.takeSize new.2).2)

namespace ReviewEnv

variable (env : ReviewEnv)

/-- `_render_raw` -/
def renderRaw (filename : String) (rawHunk : List Char) : List Char :=
  "\n\n## File: '".toList ++ strip filename.toList ++ "'\n\n".toList ++ strip rawHunk ++ ['\n']

/-- `_render_numbered`; `none` when the converter raises an error. -/
def renderNumbered (file : ReviewFile) (rawHunk : List Char) : Option (List Char) :=
  if file.editType = .deleted then some (renderRaw file.filename rawHunk)
  else
    decoupleAndConvertToHunksWithLinesNumbers env.digits (String.ofList rawHunk) (some file.info)

/-- `_render` -/
def render (file : ReviewFile) (addLineNumbers : Bool) (rawHunk : List Char) :
    Option (List Char × List Char) := do
  let rawText := renderRaw file.filename rawHunk
  let text ← if addLineNumbers then env.renderNumbered file rawHunk else some rawText
  return (strip text, strip rawText)

/-- `_make_unit` -/
def makeUnit
    (file : ReviewFile)
    (addLineNumbers : Bool)
    (hunkIndex : Nat)
    (parentUnitId : String)
    (rawHunk : List Char)
    (partIndex partCount : Nat) : Option DiffReviewUnit := do
  let rendered ← env.render file addLineNumbers rawHunk
  return {
    unitId := env.stableHash (.unit parentUnitId partIndex partCount rawHunk)
    parentUnitId
    filename := file.filename
    editType := file.editType.name
    hunkIndex
    partIndex
    partCount
    rawHunk
    rawText := rendered.2
    text := rendered.1
    tokens := env.countTokens rendered.1 }

/-! ## Parts of a hunk -/

/-- Why a hunk is not split: a rendering raised an error, or a line is too large. -/
inductive SplitStop where
  | raised
  | tooLarge
deriving DecidableEq

/-- The header in front of some lines of the body. -/
def partText (header : Option (List Char)) (lines : List (List Char)) : List Char :=
  joinLines (header.toList ++ lines)

/-- The tokens of the rendering of a part. -/
def partTokens
    (file : ReviewFile)
    (addLineNumbers : Bool)
    (header : Option (List Char))
    (lines : List (List Char)) : Option Int :=
  (env.render file addLineNumbers (partText header lines)).map (env.countTokens ·.1)

/-- The loop of `_split_oversized_hunk`: the bodies of the parts. -/
def splitBody
    (tokens : List (List Char) → Option Int)
    (usableTokens : Int) :
    List (List Char) → List (List Char) → Except SplitStop (List (List (List Char)))
  | current, [] => .ok (if current.isEmpty then [] else [current])
  | current, line :: rest =>
    match tokens (current ++ [line]) with
    | none => .error .raised
    | some count =>
      if count ≤ usableTokens then splitBody tokens usableTokens (current ++ [line]) rest
      else if current.isEmpty then .error .tooLarge
      else
        match tokens [line] with
        | none => .error .raised
        | some single =>
          if single > usableTokens then .error .tooLarge
          else (splitBody tokens usableTokens [line] rest).map (current :: ·)

/-- The header of a hunk, when its first line is one. -/
def hunkHeader (rawHunk : List Char) : Option (List Char) :=
  (splitLines (String.ofList rawHunk)).head?.filter (isHunkHeader env.digits)

/-- The lines behind the header. -/
def hunkBody (rawHunk : List Char) : List (List Char) :=
  let lines := splitLines (String.ofList rawHunk)
  if (env.hunkHeader rawHunk).isSome then lines.tail else lines

/-- `_split_oversized_hunk` -/
def splitOversizedHunk
    (file : ReviewFile)
    (addLineNumbers : Bool)
    (usableTokens : Int)
    (hunkIndex : Nat)
    (rawHunk : List Char) : Except SplitStop (List DiffReviewUnit) :=
  let header := env.hunkHeader rawHunk
  let body := env.hunkBody rawHunk
  if body.isEmpty then .error .tooLarge
  else
    let parent := env.stableHash (.parent file.filename hunkIndex rawHunk)
    match splitBody (env.partTokens file addLineNumbers header) usableTokens [] body with
    | .error stop => .error stop
    | .ok bodies =>
      match (bodies.zipIdx 1).mapM fun part =>
          env.makeUnit file addLineNumbers hunkIndex parent (partText header part.1) part.2
            bodies.length with
      | none => .error .raised
      | some units => .ok units

/-! ## The plan -/

/-- `_chunk` -/
def chunk (units : List DiffReviewUnit) : ReviewChunk :=
  let text := List.intercalate "\n\n".toList (units.map (·.text))
  let unitIds := units.map (·.unitId)
  { chunkId := env.stableHash (.chunk unitIds text)
    unitIds
    text
    rawText := List.intercalate "\n\n".toList (units.map (·.rawText))
    tokens := env.countTokens text }

/-- The numbers that `build_review_chunk_plan` is called with. -/
structure ReviewBudget where
  modelTokens : Int
  promptTokens : Int
  maxChunks : Int := 20
  outputBufferTokens : Int := 1500
  metadataTokens : Int := 256

/-- `usable_tokens` -/
def ReviewBudget.usableTokens (budget : ReviewBudget) : Int :=
  budget.modelTokens - budget.promptTokens - budget.outputBufferTokens - budget.metadataTokens

end ReviewEnv

/-! ## Coverage -/

end MrAgent
