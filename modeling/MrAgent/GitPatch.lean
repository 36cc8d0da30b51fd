import MrAgent.UnifiedPatch

namespace MrAgent

/-!
# Patches of git

What `git apply` reads in its extended format, with one component stripped from
the names in the header: the lines of a file section and the paths that it
creates, changes, deletes, renames or copies.
-/

/-! ## Names -/

/-- The characters that are quoted by a letter. -/
def escapeLetters : List (Char × Char) :=
  [(Char.ofNat 7, 'a'), (Char.ofNat 8, 'b'), ('\t', 't'), ('\n', 'n'), (Char.ofNat 11, 'v'),
    (Char.ofNat 12, 'f'), ('\r', 'r'), ('"', '"'), ('\\', '\\')]

/-- A character of a quoted name. -/
inductive NamePiece where
  | raw (c : Char) (plain : c ≠ '"' ∧ c ≠ '\\' ∧ c ≠ '\n')
  | escape (c letter : Char) (known : (c, letter) ∈ escapeLetters)
  | octal (c : Char)

/-- The three octal digits of a byte. -/
def octalByte (byte : UInt8) : List Char :=
  ['\\', Nat.digitChar (byte.toNat / 64), Nat.digitChar (byte.toNat / 8 % 8),
    Nat.digitChar (byte.toNat % 8)]

namespace NamePiece

/-- The character that is meant. -/
def char : NamePiece → Char
  | raw c _ => c
  | escape c _ _ => c
  | octal c => c

/-- The piece as it is written. -/
def text : NamePiece → List Char
  | raw c _ => [c]
  | escape _ letter _ => ['\\', letter]
  | octal c => (String.utf8EncodeChar c).flatMap octalByte

end NamePiece

/-- A name that is written as it is. -/
structure PlainName where
  text : List Char
  oneLine : ∀ c ∈ text, c ≠ '\n' ∧ c ≠ '\r'
  visible : ∃ c ∈ text, isSpace c = false
  unquoted : text.head? ≠ some '"'

/-- A name in a header. -/
inductive WrittenName where
  | plain (name : PlainName)
  | quoted (pieces : List NamePiece)

/-- A quoted name with its quotes. -/
def quotedText (pieces : List NamePiece) : List Char :=
  '"' :: (pieces.flatMap NamePiece.text ++ ['"'])

namespace WrittenName

/-- The name that is meant. -/
def name : WrittenName → List Char
  | plain name => name.text
  | quoted pieces => pieces.map NamePiece.char

/-- The name as it is written. -/
def text : WrittenName → List Char
  | plain name => name.text
  | quoted pieces => quotedText pieces

end WrittenName

/-- One slash for several in a row. -/
def squashFrom (behindSlash : Bool) : List Char → List Char
  | [] => []
  | c :: rest =>
    if behindSlash ∧ c = '/' then squashFrom true rest else c :: squashFrom (c = '/') rest

/-- `squash_slash` of git. -/
def squashSlash (path : List Char) : List Char :=
  squashFrom false path

/-- The path behind the first component of a name. -/
def behindRoot (name : List Char) : Option (List Char) :=
  match name.dropWhile (· ≠ '/') with
  | [] => none
  | _ :: path => if path = [] then none else some (squashSlash path)

/-- What follows `--- ` or `+++ `. A plain name ends with a tab, a carriage return or the line;
behind it, and behind a quoted name, anything may stand. -/
inductive FileName where
  | plain
      (name : PlainName)
      (noTab : '\t' ∉ name.text)
      (behind : LineText)
      (stops : ∀ c, behind.text.head? = some c → c = '\t' ∨ c = '\r')
  | quoted (pieces : List NamePiece) (behind : LineText)

namespace FileName

def text : FileName → List Char
  | plain name _ behind _ => name.text ++ behind.text
  | quoted pieces behind => quotedText pieces ++ behind.text

/-- The path that git takes from the line. -/
def path : FileName → Option (List Char)
  | plain name _ _ _ => behindRoot name.text
  | quoted pieces _ => behindRoot (pieces.map NamePiece.char)

/-- `is_dev_null` of git. -/
def isDevNull (file : FileName) : Bool :=
  "/dev/null".toList <+: file.text ∧
    (file.text.drop 9).head? ∈ [none, some ' ', some '\t', some '\r']

end FileName

/-! ## File sections -/

/-- The extended header lines. -/
inductive ExtendedHeader where
  | oldMode (mode : LineText)
  | newMode (mode : LineText)
  | deletedFileMode (mode : LineText)
  | newFileMode (mode : LineText)
  | copyFrom (name : WrittenName)
  | copyTo (name : WrittenName)
  | renameFrom (name : WrittenName)
  | renameTo (name : WrittenName)
  | similarityIndex (percent : LineText)
  | dissimilarityIndex (percent : LineText)
  | index (hashes : LineText)

/-- The line. -/
def ExtendedHeader.line : ExtendedHeader → List Char
  | oldMode mode => "old mode ".toList ++ mode.text
  | newMode mode => "new mode ".toList ++ mode.text
  | deletedFileMode mode => "deleted file mode ".toList ++ mode.text
  | newFileMode mode => "new file mode ".toList ++ mode.text
  | copyFrom name => "copy from ".toList ++ name.text
  | copyTo name => "copy to ".toList ++ name.text
  | renameFrom name => "rename from ".toList ++ name.text
  | renameTo name => "rename to ".toList ++ name.text
  | similarityIndex percent => "similarity index ".toList ++ percent.text
  | dissimilarityIndex percent => "dissimilarity index ".toList ++ percent.text
  | index hashes => "index ".toList ++ hashes.text

/-- A line of a binary patch. -/
inductive BinaryLine where
  | start
  | literal (size : Nat)
  | delta (size : Nat)
  | data (letter : Char) (isLetter : letter.isAlpha) (digits : LineText)
  | empty

def BinaryLine.line : BinaryLine → List Char
  | start => "GIT binary patch".toList
  | literal size => "literal ".toList ++ Nat.toDigits 10 size
  | delta size => "delta ".toList ++ Nat.toDigits 10 size
  | data letter _ digits => letter :: digits.text
  | empty => []

/-- What follows the extended header. -/
inductive SectionBody where
  | none
  | hunks (old new : FileName) (hunks : List UnifiedHunk)
  | binary (lines : List BinaryLine)

/-- The changes of one file. -/
structure FileSection where
  left : WrittenName
  right : WrittenName
  extended : List ExtendedHeader
  body : SectionBody

namespace FileSection

/-- The line that begins a section. -/
def gitLine (file : FileSection) : List Char :=
  "diff --git ".toList ++ (file.left.text ++ ' ' :: file.right.text)

/-- The lines behind the extended header. -/
def bodyLines (file : FileSection) : List (List Char) :=
  match file.body with
  | .none => []
  | .hunks old new hunks =>
    ("--- ".toList ++ old.text) :: ("+++ ".toList ++ new.text) :: hunks.flatMap UnifiedHunk.lines
  | .binary lines => lines.map BinaryLine.line

def lines (file : FileSection) : List (List Char) :=
  file.gitLine :: (file.extended.map ExtendedHeader.line ++ file.bodyLines)

end FileSection

/-- A patch; every line ends with a line feed. -/
def patchLines (patch : List FileSection) : List (List Char) :=
  patch.flatMap FileSection.lines

/-- The text of some lines. -/
def linesText (lines : List (List Char)) : List Char :=
  lines.flatMap fun line => line ++ ['\n']

/-! ## What git takes from a section -/

/-- `struct patch`, as far as the names need it. -/
structure SectionNames where
  isNew : Bool := false
  isDelete : Bool := false
  isRename : Bool := false
  isCopy : Bool := false
  old : Option (List Char) := none
  new : Option (List Char) := none

/-- `def_name`: the name of both sides of the first line, if they agree. -/
def FileSection.defaultName (file : FileSection) : Option (List Char) :=
  match behindRoot file.left.name, behindRoot file.right.name with
  | some left, some right => if left = right then some left else none
  | _, _ => none

/-- An extended header line is read. -/
def ExtendedHeader.read
    (defaultName : Option (List Char))
    (names : SectionNames) : ExtendedHeader → SectionNames
  | deletedFileMode _ => { names with isDelete := true, old := defaultName }
  | newFileMode _ => { names with isNew := true, new := defaultName }
  | copyFrom name => { names with isCopy := true, old := some (squashSlash name.name) }
  | copyTo name => { names with isCopy := true, new := some (squashSlash name.name) }
  | renameFrom name => { names with isRename := true, old := some (squashSlash name.name) }
  | renameTo name => { names with isRename := true, new := some (squashSlash name.name) }
  | _ => names

/-- `check_header_line`: a section is at most one of new, deleted, renamed and copied. -/
def SectionNames.consistent (names : SectionNames) : Bool :=
  ([names.isNew, names.isDelete, names.isRename, names.isCopy].count true) ≤ 1

/-- `gitdiff_verify_name`; the outer `none` is a rejected patch. -/
def verifyName
    (known : Option (List Char))
    (isNull : Bool)
    (file : FileName) : Option (Option (List Char)) :=
  match known, isNull with
  | none, false => some file.path
  | some name, false => if file.path = some name then some (some name) else none
  | some _, true => none
  | none, true => if file.isDevNull then some none else none

/-- The names in the lines of the header. -/
def FileSection.headerNames (file : FileSection) : Option SectionNames :=
  let names := file.extended.foldl (ExtendedHeader.read file.defaultName) {}
  if !names.consistent then none
  else match file.body with
  | .hunks oldLine newLine _ =>
    match verifyName names.old names.isNew oldLine,
        verifyName names.new names.isDelete newLine with
    | some old, some new => some { names with old, new }
    | _, _ => none
  | _ => some names

/-- The names that a section has in the end; `none` is a rejected patch. -/
def FileSection.names (file : FileSection) : Option (Option (List Char) × Option (List Char)) :=
  match file.headerNames with
  | none => none
  | some names =>
    let found :=
      if names.old = none ∧ names.new = none then (file.defaultName, file.defaultName)
      else (names.old, names.new)
    if found = (none, none) then none
    else if found.2 = none ∧ names.isDelete = false ∨ found.1 = none ∧ names.isNew = false then none
    else some found

/-- The paths that git creates, changes, deletes, renames or copies; none when it rejects the
patch. -/
def touchedPaths (patch : List FileSection) : List (List Char) :=
  match patch.mapM FileSection.names with
  | none => []
  | some names => names.flatMap fun pair => pair.1.toList ++ pair.2.toList

end MrAgent
