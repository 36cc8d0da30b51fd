import MrAgent.PipelineActions
import MrAgent.TextCut

namespace MrAgent

/-!
# Texts of repair details

`repair_details.py` and `final_repair_report.py` pass every text through
`sanitize_repair_text` when they read a record: secrets are masked, white space
is collapsed and the rest is cut. The regular expressions that mask are
parameters.
-/

/-- The substitutions of the patterns for secrets and control sequences. -/
structure RepairTextEnv where
  /-- `_SECRET_VALUE_RE.sub`. -/
  redactValues : List Char → List Char
  /-- `_PRIVATE_KEY_RE.sub`, `_SECRET_RE.sub` and `_ANSI_RE.sub`. -/
  redactSecrets : List Char → List Char

namespace RepairTextEnv

variable (env : RepairTextEnv)

/-- `sanitize_failure_text`. -/
def sanitizeFailureText (value : String) (limit : Nat) : String :=
  boundedText (String.ofList ((env.redactSecrets value.toList).filter (· ≠ Char.ofNat 0))) limit

/-- `sanitize_repair_text`. -/
def sanitizeRepairText (value : String) (limit : Nat) : String :=
  env.sanitizeFailureText (String.ofList (env.redactValues value.toList)) limit

/-- `_clean_text`. -/
def cleanText (value : String) (limit : Nat) : String :=
  String.ofList (strip (env.sanitizeRepairText value limit).toList)

end RepairTextEnv

/-! ## Paths -/

/-- One component of a path that is normalised from left to right. -/
def normComponent (parts : List (List Char)) (part : List Char) : List (List Char) :=
  if part = [] ∨ part = ['.'] then parts
  else if part ≠ ['.', '.'] ∨ parts = [] ∨ parts.getLast? = some ['.', '.'] then parts ++ [part]
  else parts.dropLast

/-- `posixpath.normpath` on a path that does not start with a slash. -/
def normpath (path : List Char) : List Char :=
  let parts := (path.splitOn '/').foldl normComponent []
  if parts = [] then ['.'] else ['/'].intercalate parts

/-- `_safe_path`; `none` is the empty text. -/
def RepairTextEnv.safePath (env : RepairTextEnv) (value : String) : Option String :=
  let path := (strip value.toList).map fun c => if c = '\\' then '/' else c
  let normalized := normpath path
  if path = [] ∨ path.head? = some '/' ∨ Char.ofNat 0 ∈ path then none
  else if normalized = ['.'] ∨ normalized = ['.', '.'] ∨ "../".toList <+: normalized then none
  else
    let text := env.sanitizeRepairText (String.ofList normalized) 300
    if text = "" then none else some text

/-! ## Lines -/

/-- The lines of a text behind the reversed start of its first line. -/
def splitLinesFrom : List Char → List Char → List (List Char)
  | [], [] => []
  | line, [] => [line.reverse]
  | line, '\r' :: '\n' :: rest => line.reverse :: splitLinesFrom [] rest
  | line, c :: rest =>
    if isLineBreak c then line.reverse :: splitLinesFrom [] rest
    else splitLinesFrom (c :: line) rest

/-- `str.splitlines`. -/
def splitLines (text : String) : List (List Char) :=
  splitLinesFrom [] text.toList

end MrAgent
