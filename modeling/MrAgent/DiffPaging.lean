import MrAgent.TextLines
import MrAgent.Utf8Replace

namespace MrAgent

/-!
# Pages of the worktree Diff

`inspect_repo_diff_tool` shows the Diff of the worktree page by page. The total
is counted on the bytes, the lines of a page are cut from the decoded text, and
the text of a page is its lines with line feeds between them.
-/

/-- `bytes.splitlines`, the line so far reversed. -/
def splitBytesFrom : List UInt8 → List UInt8 → List (List UInt8)
  | [], [] => []
  | line, [] => [line.reverse]
  | line, 13 :: 10 :: rest => line.reverse :: splitBytesFrom [] rest
  | line, byte :: rest =>
    if byte = 10 ∨ byte = 13 then line.reverse :: splitBytesFrom [] rest
    else splitBytesFrom (byte :: line) rest

/-- `bytes.splitlines` -/
def splitBytes (bytes : List UInt8) : List (List UInt8) :=
  splitBytesFrom [] bytes

/-- `RepoSnapshot`, as far as the pages use it. -/
structure RepoSnapshot where
  baseSha : String
  diffBytes : List UInt8
  diffDigest : String

namespace RepoSnapshot

/-- `diff_text` -/
def diffText (snapshot : RepoSnapshot) : List Char :=
  Utf8Replace.decode snapshot.diffBytes

/-- `total_lines` -/
def totalLines (snapshot : RepoSnapshot) : Nat :=
  (splitBytes snapshot.diffBytes).length

end RepoSnapshot

/-- `page` and `diff` of a result; `lines` are the lines that `diff` joins. -/
structure DiffPage where
  startLine : Nat
  endLine : Nat
  maxLines : Nat
  hasMore : Bool
  nextStartLine : Option Nat
  lines : List (List Char)
deriving DecidableEq

/-- The text of a page. -/
def DiffPage.diff (page : DiffPage) : List Char :=
  List.intercalate ['\n'] page.lines

/-- `DIFF_VIEW_MAX_LINES` -/
structure ViewLimit where
  maxLines : Nat
  positive : 0 < maxLines

/-- How a call of the tool is answered on a repository that is there. -/
inductive InspectAnswer where
  | notPositive
  | beyondTotal
  | ok (page : DiffPage)
deriving DecidableEq

/-- `inspect_repo_diff_tool` -/
def inspectRepoDiff
    (limit : ViewLimit)
    (snapshot : RepoSnapshot)
    (startLine maxLines : Int) : InspectAnswer :=
  if startLine ≤ 0 ∨ maxLines ≤ 0 then .notPositive
  else
    let boundedMaxLines := min maxLines.toNat limit.maxLines
    let lines := splitLines (String.ofList snapshot.diffText)
    if lines = [] then
      .ok { startLine := 0, endLine := 0, maxLines := boundedMaxLines, hasMore := false
            nextStartLine := none, lines := [] }
    else if startLine > snapshot.totalLines then .beyondTotal
    else
      let startIndex := startLine.toNat - 1
      let pageLines := (lines.drop startIndex).take boundedMaxLines
      let endLine := startIndex + pageLines.length
      let hasMore := endLine < snapshot.totalLines
      .ok
        { startLine := startLine.toNat
          endLine
          maxLines := boundedMaxLines
          hasMore
          nextStartLine := if hasMore then some (endLine + 1) else none
          lines := pageLines }

/-- Following `next_start_line` from a line on until there is none. -/
inductive Follows (limit : ViewLimit) (snapshot : RepoSnapshot) (maxLines : Int) :
    Nat → List DiffPage → Prop where
  | last {start : Nat} {page : DiffPage} :
      inspectRepoDiff limit snapshot start maxLines = .ok page →
      page.nextStartLine = none →
      Follows limit snapshot maxLines start [page]
  | next {start next : Nat} {page : DiffPage} {rest : List DiffPage} :
      inspectRepoDiff limit snapshot start maxLines = .ok page →
      page.nextStartLine = some next →
      Follows limit snapshot maxLines next rest →
      Follows limit snapshot maxLines start (page :: rest)

/-- What the ledger keeps of a page. -/
def DiffPage.result (snapshot : RepoSnapshot) (page : DiffPage) : ToolResult where
  status := .ok
  baseSha := snapshot.baseSha
  diffDigest := snapshot.diffDigest
  totalLines := snapshot.totalLines
  startLine := page.startLine
  endLine := page.endLine
  diff := (splitLines (String.ofList page.diff)).map String.ofList

end MrAgent
