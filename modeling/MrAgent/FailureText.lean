import MrAgent.ConflictGroups
import MrAgent.PatternScan
import MrAgent.SeparatedText

namespace MrAgent.FailureText

open PatternScan

/-!
# Secrets in failure texts

`sanitize_failure_text` masks private keys and secrets first, removes escapes
and NULs then, joins the white space and cuts the text. What the later passes
take away can uncover what the earlier ones looked for.
-/

/-! ## The patterns -/

/-- What a letter of a pattern that ignores the case is compared with. -/
def foldCase (c : Char) : Char :=
  if c = 'ſ' then 's' else if c = '\u212A' then 'k' else if c ∈ ['İ', 'ı'] then 'i' else c.toLower

def startsWith (pattern text : List Char) : Bool :=
  (text.take pattern.length).map foldCase = pattern

def isParameter (c : Char) : Bool :=
  '0' ≤ c && c ≤ '?'

def isIntermediate (c : Char) : Bool :=
  ' ' ≤ c && c ≤ '/'

/-- The length of an escape sequence behind its first two characters. -/
def escapeTail (text : List Char) : Option Nat :=
  match (text.dropWhile isParameter).dropWhile isIntermediate with
  | [] => none
  | c :: rest => if '@' ≤ c ∧ c ≤ '~' then some (text.length - rest.length) else none

/-- `_ANSI_RE`: the length of a match. -/
def escapeSize : List Char → Option Nat
  | '\x1b' :: '[' :: rest => (escapeTail rest).map (· + 2)
  | _ => none

/-- `-----BEGIN [^-]*PRIVATE KEY-----` and the same with `END`. -/
def markSize (kind : String) (text : List Char) : Option Nat :=
  let head := "-----".toList ++ kind.toList ++ [' ']
  let name := (text.drop head.length).takeWhile (· ≠ '-')
  let behind := (text.drop head.length).dropWhile (· ≠ '-')
  if startsWith head text ∧ "private key".toList <:+ name.map foldCase ∧ "-----".toList <+: behind
  then some (head.length + name.length + 5) else none

/-- `.*?` up to the first end mark, with it. -/
def endSize : List Char → Option Nat
  | [] => none
  | c :: rest =>
    match markSize "end" (c :: rest) with
    | some size => some size
    | none => (endSize rest).map (· + 1)

/-- `_PRIVATE_KEY_RE`: the length of a match. -/
def keySize (text : List Char) : Option Nat := do
  let first ← markSize "begin" text
  return first + (← endSize (text.drop first))

def keyRule : Rule (List Char) :=
  Rule.ofSize keySize "[REDACTED PRIVATE KEY]".toList

def escapeRule : Rule (List Char) :=
  Rule.ofSize escapeSize []

/-- A match of `_SECRET_RE`. -/
structure Secret where
  word : List Char
  before : List Char
  sep : Char
  behind : List Char
  value : List Char
deriving DecidableEq

def redactedMark : List Char :=
  "[REDACTED]".toList

namespace Secret

def source (secret : Secret) : List Char :=
  secret.word ++ (secret.before ++ secret.sep :: (secret.behind ++ secret.value))

def output (secret : Secret) : List Char :=
  secret.word ++ '=' :: redactedMark

/-- The secret is spelled as the replacement spells it. -/
def Plain (secret : Secret) : Prop :=
  secret.before = [] ∧ secret.sep = '=' ∧ secret.behind = []

end Secret

def secretWords : List (List Char) :=
  ["token".toList, "password".toList, "authorization".toList]

section Sanitize

variable (env : WordEnv)

/-- `_SECRET_RE`, behind a character. -/
def findSecret (last : Option Char) (text : List Char) : Option Secret :=
  match secretWords.find? (startsWith · text) with
  | none => none
  | some word =>
    let after := text.drop word.length
    match after.dropWhile isSpace with
    | [] => none
    | sep :: rest =>
      let tail := rest.dropWhile isSpace
      if last.any env.isWord = false ∧ after.head?.any env.isWord = false ∧ sep ∈ [':', '='] ∧
          tail ≠ [] then
        some {
          word := text.take word.length
          before := after.takeWhile isSpace
          sep := sep
          behind := rest.takeWhile isSpace
          value := tail.takeWhile (!isSpace ·) }
      else none

theorem findSecret_spec
    {last : Option Char}
    {text : List Char}
    {secret : Secret}
    (found : findSecret env last text = some secret) :
    secret.source <+: text ∧ (∀ c ∈ secret.before, isSpace c = true) ∧ secret.sep ∈ [':', '='] ∧
      (∀ c ∈ secret.behind, isSpace c = true) ∧ secret.value ≠ [] ∧
        ∀ c ∈ secret.value, isSpace c = false := by
  rw [findSecret] at found
  split at found
  · cases found
  · rename_i word _
    dsimp only at found
    split at found
    · cases found
    · rename_i sep rest shape
      split at found
      · rename_i facts
        obtain ⟨_, _, known, filled⟩ := facts
        cases found
        have all : ∀ text : List Char, ∀ c ∈ text.takeWhile isSpace, isSpace c = true :=
          fun _ _ => List.mem_takeWhile_imp
        refine ⟨⟨(rest.dropWhile isSpace).dropWhile (!isSpace ·), ?_⟩, all _, known, all _, ?_, ?_⟩
        · have whole : text = text.take word.length ++ ((text.drop word.length).takeWhile isSpace ++
              sep :: (rest.takeWhile isSpace ++ rest.dropWhile isSpace)) := by
            rw [List.takeWhile_append_dropWhile, ← shape, List.takeWhile_append_dropWhile,
              List.take_append_drop]
          conv_rhs => rw [whole]
          simp [Secret.source]
        · cases tail : rest.dropWhile isSpace with
          | nil => exact absurd tail filled
          | cons c more =>
              have letter := List.head?_dropWhile_not isSpace rest
              rw [tail] at letter
              simp at letter
              simp [letter]
        · intro c member
          simpa using List.mem_takeWhile_imp member
      · cases found

def secretRule : Rule Secret where
  find := findSecret env
  source := Secret.source
  output := Secret.output
  sound _ _ found isFound :=
    ⟨by simp [Secret.source], (findSecret_spec env isFound).1⟩

/-- The text when all passes but the last two are made. -/
def cleaned (value : List Char) : List Char :=
  (escapeRule.sub ((secretRule env).sub (keyRule.sub value))).filter (· ≠ Char.ofNat 0)

/-- `sanitize_failure_text`. -/
def sanitizeFailureText (value : String) (limit : Int) : String :=
  boundedText (String.ofList (cleaned env value.toList)) limit.toNat

theorem sanitizeFailureText_eq
    (redactValues : List Char → List Char) (value : String) (limit : Int) :
    sanitizeFailureText env value limit =
      RepairTextEnv.sanitizeFailureText
        ⟨redactValues, fun text => escapeRule.sub ((secretRule env).sub (keyRule.sub text))⟩
        value limit.toNat :=
  rfl

end Sanitize

/-! ## Joined white space -/

variable (text : List Char)

variable {c : Char}

variable {parts : List (List Char)}

variable {front more : List Char}

section Cut

variable {env : WordEnv}

variable {secret : Secret} {text : List Char}

end Cut

namespace FailureSample

/-- Only ASCII letters and digits are word characters. -/
def env : WordEnv where
  foreignWord := fun _ => false

end FailureSample

end MrAgent.FailureText
