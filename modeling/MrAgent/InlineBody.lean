import MrAgent.InlinePublisher
import MrAgent.MarkdownFences
import MrAgent.NumberedHunks

namespace MrAgent.InlineBody

open MarkdownFences

/-!
# The text of an inline suggestion

`render_inline_body` puts the code and the description of a suggestion around a
fenced block, and the provider then writes the line range into the finished
text. The Apply button writes what Markdown reads as the block.
-/

/-- What the renderer takes from Python and the settings. -/
structure BodyEnv where
  lower : List Char → List Char
  isZh : Bool
  /-- `inline_suggestion_collapsed` -/
  collapsed : Bool

/-- The other fields of a suggestion that are rendered. -/
structure BodyFields where
  label : String
  impact : String
  risk : String
  severity : String
  impactLevel : String
  /-- What `int` reads of the score. -/
  score : Option Int
  oneSentenceSummary : String

/-- `"\n".join(lines)`. -/
def joinText (lines : List (List Char)) : List Char :=
  ['\n'].intercalate lines

/-- `text.strip(c)`. -/
def stripChar (c : Char) (text : List Char) : List Char :=
  (text.dropWhile (· = c)).rdropWhile (· = c)

/-- `_normalize_score`. -/
def normalizeScore (score : Option Int) : Option Int :=
  score.map fun value => max 0 (min 10 value)

namespace BodyEnv

variable (env : BodyEnv)

/-- A text in the language of the answers. -/
def say (zh en : String) : List Char :=
  if env.isZh then zh.toList else en.toList

/-- `_strip_severity_line`. -/
def stripSeverityLine (text : List Char) : List Char :=
  let lines := splitLinesFrom [] text
  let isEmpty := fun line : List Char => (strip line).isEmpty
  let front := lines.takeWhile isEmpty
  let kept :=
    match lines.dropWhile isEmpty with
    | [] => []
    | first :: rest =>
      if "severity:".toList <+: env.lower (strip first) ∨ "严重性".toList <+: strip first then
        match rest with
        | next :: more => if isEmpty next then more else next :: more
        | [] => []
      else first :: rest
  stripChar '\n' (joinText (front ++ kept))

/-- The replacements of `_localize`. -/
def localizations : List (String × String) :=
  [("Severity: Blocker", "严重性：阻断"), ("Severity: High", "严重性：高"),
    ("Severity: Medium", "严重性：中"), ("Severity: Low", "严重性：低"),
    ("Why it's wrong:", "原因："), ("Why it’s wrong:", "原因："), ("Trigger:", "触发场景："),
    ("Fix:", "修复建议："), ("Test:", "测试：")]

/-- `_localize`. -/
def localize (text : List Char) : List Char :=
  if env.isZh then
    localizations.foldl (fun text pair => replaceAll pair.1.toList pair.2.toList 0 text) text
  else text

/-- `line.split(":", 1)[-1]`. -/
def behindColon (line : List Char) : List Char :=
  match line.dropWhile (· ≠ ':') with
  | [] => line
  | _ :: rest => rest

/-- The level that a line of the content names. -/
def levelOfContent (content : List Char) : List Char :=
  match ((splitLinesFrom [] content).map strip).find? fun line =>
      "severity:".toList <+: env.lower line ∨ "严重性：".toList <+: line ∨
        "严重性:".toList <+: line with
  | none => []
  | some line => strip (stripChar '：' (strip (behindColon line)))

local instance lawfulLevels : LawfulBEq (List Char) := inferInstance

/-- `_impact_label`. -/
def impactLabel (fields : BodyFields) (content : List Char) : List Char :=
  let named :=
    match [fields.impact, fields.risk, fields.severity, fields.impactLevel].find? (· ≠ "") with
    | none => []
    | some level => strip level.toList
  let level := if named = [] then env.levelOfContent content else named
  let normalized := (env.lower level).map fun c => if c = '：' then ':' else c
  if normalized ∈ ["blocker".toList, "阻断".toList] then env.say "阻断" "Blocker"
  else if normalized ∈ ["high".toList, "高".toList] then env.say "高" "High"
  else if normalized ∈ ["medium".toList, "中".toList] then env.say "中" "Medium"
  else if normalized ∈ ["low".toList, "低".toList] then env.say "低" "Low"
  else env.say "未标注" "Unspecified"

/-- The first line of the comment. -/
def header (fields : BodyFields) (content : List Char) : List Char :=
  let bar := env.say "｜" " | "
  let score :=
    match normalizeScore fields.score with
    | none => []
    | some score => env.say "（" " (" ++ (toString score).toList ++ env.say "）" ")"
  "**PR-Agent".toList ++ bar ++ strip fields.label.toList ++ bar ++
    env.impactLabel fields content ++ score ++ "**".toList

/-- The lines in front of the block. -/
def partsBefore (fields : BodyFields) (content : List Char) : List (List Char) :=
  let summary := strip fields.oneSentenceSummary.toList
  env.header fields content :: [] ::
    if summary = [] then [] else [env.say "问题：" "Issue: " ++ summary, []]

/-- The code that is suggested. -/
def improved (suggestion : InlineSuggestion) : List Char :=
  suggestion.improvedCode.toList.rdropWhile (· = '\n')

/-- The part with the suggestion block. -/
def suggestionPart (suggestion : InlineSuggestion) : List Char :=
  let block := "```suggestion\n".toList ++ improved suggestion ++ "\n```".toList
  if env.collapsed then
    "<details>\n<summary>".toList ++
      env.say "查看修改建议（点击展开）" "View suggested change (click to expand)" ++
      "</summary>\n\n".toList ++ block ++ "\n\n</details>".toList
  else block

/-- The parts behind the block. -/
def partsBehind (content : List Char) (id : String) : List (List Char) :=
  let text := env.localize (strip (env.stripSeverityLine content))
  (if text = [] then [] else
    [[], "<details>\n<summary>".toList ++ env.say "展开原因与验证" "Details" ++
      "</summary>\n\n".toList ++ text ++ "\n</details>".toList]) ++
  [[], env.say
      "⚠️ 请处理该建议后再合并：点击\"应用建议\"采纳，或点击\"解决主题\"拒绝，若拒绝请在下方回复栏给出拒绝的原因。"
      ("⚠️ Please act on this suggestion before merging: click \"Apply\" to accept, " ++
        "or \"Resolve thread\" to decline (please leave a brief reason on the left if declining)."),
    [], "<!-- pr-agent-suggestion:".toList ++ id.toList ++ " -->".toList]

/-- `render_inline_body`. -/
def renderInlineBody (suggestion : InlineSuggestion) (fields : BodyFields) (id : String) : String :=
  let content := suggestion.content.toList
  String.ofList (joinText (env.partsBefore fields content ++
    env.suggestionPart suggestion :: env.partsBehind content id))

end BodyEnv

/-- A suggestion that is posted on the diff. -/
structure InlinePost where
  env : BodyEnv
  publisher : InlineEnv
  suggestion : InlineSuggestion
  fields : BodyFields
  runId : String
  index : Nat
  /-- `_skip_reason` lets no other range pass. -/
  ordered : suggestion.linesStart ≤ suggestion.linesEnd

namespace InlinePost

variable (post : InlinePost)

def payload : InlinePayload :=
  { post.publisher with
    renderInlineBody := fun suggestion id =>
      post.env.renderInlineBody suggestion post.fields id }.payload
    post.runId post.suggestion post.index

/-- The line range of the suggestion, behind its first line. -/
def range : List Char :=
  ("-0+" ++ toString (post.suggestion.linesEnd - post.suggestion.linesStart)).toList

/-- A part of the text, as it is posted. -/
def ranged (text : List Char) : List Char :=
  replaceAll "```suggestion".toList ("```suggestion:".toList ++ post.range) 0 text

/-- The text in front of the suggestion block. -/
def textBefore : List Char :=
  joinText (post.env.partsBefore post.fields post.suggestion.content.toList) ++
    if post.env.collapsed then
      "\n<details>\n<summary>".toList ++
        post.env.say "查看修改建议（点击展开）" "View suggested change (click to expand)" ++
        "</summary>\n".toList
    else []

/-- The text behind the suggestion block. -/
def textBehind : List Char :=
  (if post.env.collapsed then "\n</details>\n".toList else []) ++
    joinText (post.env.partsBehind post.suggestion.content.toList (makeSuggestionId post.index)) ++
    ("\n\n<!-- " ++ post.payload.marker ++ " -->").toList

/-- The code lines that the suggestion writes. -/
def codeLines : List (List Char) :=
  (BodyEnv.improved post.suggestion).splitOn '\n'

end InlinePost

/-- The line range of a suggestion block, from the text behind its opening marks. -/
def rangeOf (info : List Char) : Option (List Char) :=
  let word := (info.dropWhile isBlank).takeWhile (!isBlank ·)
  if "suggestion".toList <+: word then
    match word.drop "suggestion".length with
    | [] => some "-0+0".toList
    | ':' :: range => some range
    | _ => none
  else none

/-- The suggestion blocks among some lines, with their ranges. -/
def suggestionBlocks (lines : List (List Char)) : List (List Char × List (List Char)) :=
  (fencedBlocks lines).filterMap fun block => (rangeOf block.info).map (·, block.lines)

namespace InlinePost

variable (post : InlinePost)

/-- The text that is posted holds the suggestion, with its range and its code, and no other one. -/
def Applies : Prop :=
  suggestionBlocks (post.payload.native.toList.splitOn '\n') = [(post.range, post.codeLines)]

/-- The texts in front of the block leave no block open. -/
def Closed : Prop :=
  (Reading.read {} ((post.ranged post.textBefore).splitOn '\n')).current = none

/-- Neither the code nor the description disturbs the block. -/
structure Undisturbed : Prop where
  before : suggestionBlocks ((post.ranged post.textBefore).splitOn '\n') = []
  noFence : ∀ line ∈ post.codeLines, (Fence.mk '`' 3).closedBy line = false
  noKeyword : ¬ "```suggestion".toList <:+: BodyEnv.improved post.suggestion
  behind : suggestionBlocks ((post.ranged post.textBehind).splitOn '\n') = []

end InlinePost

/-! ## Replacing in a text -/

section Replace

variable {old new : List Char}

variable {text : List Char}

variable {skip : Nat}

theorem replaceAll_skip
    (all : text.length ≤ skip) :
    replaceAll old new skip text = [] := by
  induction text generalizing skip with
  | nil => rw [replaceAll]
  | cons c rest ih =>
      cases skip with
      | zero => cases all
      | succ skip =>
          rw [replaceAll]
          exact ih (Nat.le_of_succ_le_succ all)

theorem replaceAll_self
    (filled : old ≠ []) :
    replaceAll old new 0 old = new := by
  cases old with
  | nil => exact absurd rfl filled
  | cons c rest =>
      rw [replaceAll, if_pos List.prefix_rfl, replaceAll_skip (by simp), List.append_nil]

variable {c : Char}

theorem prefix_append_cons_iff
    (absent : c ∉ old)
    (text rest : List Char) :
    old <+: text ++ c :: rest ↔ old <+: text := by
  refine ⟨fun found => ?_, fun found => found.trans (List.prefix_append _ _)⟩
  rcases List.prefix_or_prefix_of_prefix found (List.prefix_append text (c :: rest)) with
    short | ⟨more, rfl⟩
  · exact short
  · cases more with
    | nil => rw [List.append_nil]
    | cons first more =>
        obtain ⟨behind, same⟩ := (List.prefix_append_right_inj text).mp found
        rw [List.cons_append] at same
        exact absurd (by simp [(List.cons.inj same).1]) absent

theorem replaceAll_append_cons
    (filled : old ≠ [])
    (absent : c ∉ old)
    (inside : skip ≤ text.length)
    (rest : List Char) :
    replaceAll old new skip (text ++ c :: rest) =
      replaceAll old new skip text ++ c :: replaceAll old new 0 rest := by
  induction text generalizing skip with
  | nil =>
      obtain rfl : skip = 0 := Nat.le_zero.mp inside
      have other : ¬ old <+: [] ++ c :: rest := fun found =>
        filled (List.prefix_nil.mp ((prefix_append_cons_iff absent _ _).mp found))
      rw [List.nil_append] at other
      have empty : replaceAll old new 0 [] = [] := by
        rw [replaceAll]
      rw [empty, List.nil_append, List.nil_append, replaceAll, if_neg other]
  | cons first text ih =>
      cases skip with
      | succ skip =>
          rw [List.cons_append, replaceAll, replaceAll]
          exact ih (Nat.le_of_succ_le_succ inside)
      | zero =>
          rw [List.cons_append, replaceAll, replaceAll, ← List.cons_append]
          by_cases found : old <+: first :: text
          · have short := found.length_le
            rw [if_pos ((prefix_append_cons_iff absent _ _).mpr found), if_pos found,
              ih (by rw [List.length_cons] at short; omega), List.append_assoc]
          · rw [if_neg (fun here => found ((prefix_append_cons_iff absent _ _).mp here)), if_neg found,
              ih (Nat.zero_le _), List.cons_append]

theorem replaceAll_of_not_infix
    (absent : ¬ old <:+: text) :
    replaceAll old new 0 text = text := by
  induction text with
  | nil => rw [replaceAll]
  | cons c rest ih =>
      rw [List.infix_cons_iff, not_or] at absent
      rw [replaceAll, if_neg absent.1, ih absent.2]

theorem length_replaceAll
    (longer : old.length < new.length)
    (skip : Nat)
    (text : List Char) :
    text.length ≤ (replaceAll old new skip text).length + skip := by
  induction text generalizing skip with
  | nil => exact Nat.zero_le _
  | cons c rest ih =>
      cases skip with
      | succ skip =>
          have further := ih skip
          rw [replaceAll, List.length_cons]
          omega
      | zero =>
          rw [replaceAll]
          split
          · have further := ih (old.length - 1)
            rw [List.length_append, List.length_cons]
            omega
          · have further := ih 0
            rw [List.length_cons, List.length_cons]
            omega

theorem replaceAll_eq_self_iff
    (filled : old ≠ [])
    (longer : old.length < new.length) :
    replaceAll old new 0 text = text ↔ ¬ old <:+: text := by
  refine ⟨fun same found => ?_, replaceAll_of_not_infix⟩
  induction text with
  | nil => exact filled (List.infix_nil.mp found)
  | cons c rest ih =>
      rw [replaceAll] at same
      split at same
      · have further := length_replaceAll longer (old.length - 1) rest
        have size := congrArg List.length same
        have some := List.length_pos_iff.mpr filled
        rw [List.length_append, List.length_cons] at size
        omega
      · rename_i other
        exact ih (List.cons.inj same).2
          ((List.infix_cons_iff.mp found).resolve_left other)

theorem length_splitOn
    (c : Char)
    (text : List Char) :
    (text.splitOn c).length = text.count c + 1 := by
  induction text with
  | nil => rfl
  | cons first rest ih =>
      rw [List.splitOn_cons_eq_if_modifyHead, List.count_cons]
      split <;> simp_all

theorem count_replaceAll
    (filled : old ≠ [])
    (absentOld : c ∉ old)
    (absentNew : c ∉ new)
    (skip : Nat)
    (text : List Char) :
    (replaceAll old new skip text).count c = (text.drop skip).count c := by
  induction text generalizing skip with
  | nil => simp [replaceAll]
  | cons first rest ih =>
      cases skip with
      | succ skip =>
          rw [replaceAll, List.drop_succ_cons]
          exact ih skip
      | zero =>
          rw [replaceAll, List.drop_zero]
          split
          · rename_i found
            obtain ⟨more, same⟩ := found
            have behind : rest.drop (old.length - 1) = more := by
              have dropped := congrArg (List.drop old.length) same
              obtain ⟨size, isSize⟩ := Nat.exists_eq_succ_of_ne_zero
                (fun none => filled (List.length_eq_zero_iff.mp none))
              rw [List.drop_left, isSize, List.drop_succ_cons] at dropped
              rw [isSize]
              exact dropped.symm
            rw [List.count_append, ih, behind, ← same, List.count_append,
              List.count_eq_zero.mpr absentOld, List.count_eq_zero.mpr absentNew]
          · rw [List.count_cons, List.count_cons, ih, List.drop_zero]

end Replace

/-! ## The text that is posted -/

theorem joinText_append
    {first second : List (List Char)}
    (filledFirst : first ≠ [])
    (filledSecond : second ≠ []) :
    joinText (first ++ second) = joinText first ++ '\n' :: joinText second := by
  induction first with
  | nil => exact absurd rfl filledFirst
  | cons line rest ih =>
      cases rest with
      | nil =>
          rw [List.singleton_append, joinText, List.intercalate_cons_of_ne_nil filledSecond]
          simp [joinText]
      | cons next rest =>
          have further := ih (by simp)
          simp only [joinText, List.cons_append] at further ⊢
          rw [List.intercalate_cons_cons, further, List.intercalate_cons_cons]
          simp

namespace InlinePost

variable (post : InlinePost)

theorem payload_body :
    post.payload.body.toList = post.textBefore ++ '\n' :: ("```suggestion".toList ++ '\n' ::
      (BodyEnv.improved post.suggestion ++ '\n' :: ("```".toList ++ '\n' :: post.textBehind))) := by
  have before : post.env.partsBefore post.fields post.suggestion.content.toList ≠ [] := by
    simp [BodyEnv.partsBefore]
  have behind : ∀ id, post.env.partsBehind post.suggestion.content.toList id ≠ [] := by
    simp [BodyEnv.partsBehind]
  have body : post.payload.body.toList =
      joinText (post.env.partsBefore post.fields post.suggestion.content.toList ++
        post.env.suggestionPart post.suggestion ::
          post.env.partsBehind post.suggestion.content.toList (makeSuggestionId post.index)) ++
        ("\n\n<!-- " ++ post.payload.marker ++ " -->").toList := by
    simp [payload, InlineEnv.payload, BodyEnv.renderInlineBody]
  have part : ∀ id, joinText (post.env.suggestionPart post.suggestion ::
        post.env.partsBehind post.suggestion.content.toList id) =
      post.env.suggestionPart post.suggestion ++ '\n' ::
        joinText (post.env.partsBehind post.suggestion.content.toList id) := by
    intro id
    rw [← List.singleton_append, joinText_append (by simp) (behind id), joinText,
      List.intercalate_singleton]
  rw [body, joinText_append before (by simp), part, textBefore, textBehind,
    BodyEnv.suggestionPart]
  cases post.env.collapsed <;> simp

theorem range_chars :
    ∀ c ∈ post.range, c = '-' ∨ c = '+' ∨ c.isDigit = true := by
  intro c member
  rw [range, String.toList_append, List.mem_append] at member
  rcases member with start | number
  · have known : ∀ c ∈ "-0+".toList, c = '-' ∨ c = '+' ∨ c.isDigit = true := by
      decide
    exact known c start
  · have digits : c ∈ Nat.toDigits 10 (post.suggestion.linesEnd - post.suggestion.linesStart) := by
      simpa using number
    exact .inr (.inr (Nat.isDigit_of_mem_toDigits (by decide) (by decide) digits))

theorem not_mem_range
    {c : Char}
    (other : c ≠ '-' ∧ c ≠ '+' ∧ c.isDigit = false) :
    c ∉ post.range := by
  intro member
  rcases post.range_chars c member with minus | plus | digit
  · exact other.1 minus
  · exact other.2.1 plus
  · rw [other.2.2] at digit
    cases digit

theorem newline_not_mem_first : '\n' ∉ "```suggestion:".toList ++ post.range := by
  rw [List.mem_append, not_or]
  exact ⟨by decide, post.not_mem_range (by decide)⟩

theorem native_lines :
    post.payload.native.toList.splitOn '\n' =
      (post.ranged post.textBefore).splitOn '\n' ++ ("```suggestion:".toList ++ post.range) ::
        ((post.ranged (BodyEnv.improved post.suggestion)).splitOn '\n' ++
          "```".toList :: (post.ranged post.textBehind).splitOn '\n') := by
  have filled : "```suggestion".toList ≠ [] := by decide
  have absent : '\n' ∉ "```suggestion".toList := by decide
  have other : ¬ "```suggestion".toList <:+: "```".toList := by decide
  have written : post.payload.native.toList = post.ranged post.payload.body.toList := by
    simp [InlinePayload.native, ranged, range, payload, InlineEnv.payload]
  rw [written, payload_body, ranged, replaceAll_append_cons filled absent (Nat.zero_le _),
    replaceAll_append_cons filled absent (Nat.zero_le _),
    replaceAll_append_cons filled absent (Nat.zero_le _),
    replaceAll_append_cons filled absent (Nat.zero_le _), replaceAll_self filled,
    replaceAll_of_not_infix other, List.splitOn_append_cons_self,
    List.splitOn_append_cons_self_of_not_mem post.newline_not_mem_first, List.splitOn_append_cons_self,
    List.splitOn_append_cons_self_of_not_mem (by decide)]
  rfl

theorem opening_range :
    opening ("```suggestion:".toList ++ post.range) =
      some (⟨'`', 3⟩, "suggestion:".toList ++ post.range) := by
  have absent : '`' ∉ "suggestion:".toList ++ post.range := by
    rw [List.mem_append, not_or]
    exact ⟨by decide, post.not_mem_range (by decide)⟩
  simp [opening, unindented] at absent ⊢
  exact absent

theorem rangeOf_range :
    rangeOf ("suggestion:".toList ++ post.range) = some post.range := by
  have solid : ∀ c ∈ "suggestion:".toList ++ post.range, (!isBlank c) = true := by
    intro c member
    rcases List.mem_append.mp member with word | number
    · have known : ∀ c ∈ "suggestion:".toList, (!isBlank c) = true := by
        decide
      exact known c word
    · have blanks : ∀ blank ∈ [' ', '\t', '\r'], c ≠ blank := by
        intro blank isBlank same
        have other : ∀ blank ∈ [' ', '\t', '\r'],
            blank ≠ '-' ∧ blank ≠ '+' ∧ blank.isDigit = false := by
          decide
        exact post.not_mem_range (other blank isBlank) (same ▸ number)
      simp only [List.mem_cons, List.not_mem_nil, or_false, forall_eq_or_imp, forall_eq] at blanks
      simp [isBlank, blanks]
  have start : ("suggestion:".toList ++ post.range).dropWhile isBlank =
      "suggestion:".toList ++ post.range := rfl
  rw [rangeOf, start, List.takeWhile_eq_self_iff.mpr solid]
  have known : "suggestion".toList <+: "suggestion:".toList ++ post.range :=
    ⟨':' :: post.range, rfl⟩
  simp only [known, ↓reduceIte]
  rfl

theorem suggestionBlocks_eq
    {lines : List (List Char)}
    {front later : List FencedBlock}
    {content : List (List Char)}
    (blocks : fencedBlocks lines =
      front ++ ⟨"suggestion:".toList ++ post.range, content⟩ :: later) :
    suggestionBlocks lines = [(post.range, post.codeLines)] ↔
      front.filterMap (fun block => (rangeOf block.info).map (·, block.lines)) = [] ∧
        content = post.codeLines ∧
          later.filterMap (fun block => (rangeOf block.info).map (·, block.lines)) = [] := by
  rw [suggestionBlocks, blocks, List.filterMap_append, List.filterMap_cons, post.rangeOf_range]
  cases front.filterMap _ <;> simp

theorem not_applies_of_fence
    (closed : post.Closed)
    (cut : ∃ line ∈ (post.ranged (BodyEnv.improved post.suggestion)).splitOn '\n',
      (Fence.mk '`' 3).closedBy line = true) :
    ¬ post.Applies := by
  obtain ⟨front, short, later, blocks⟩ := fencedBlocks_cut closed post.opening_range cut
  rw [Applies, native_lines, post.suggestionBlocks_eq blocks]
  rintro ⟨_, same, _⟩
  rw [same, codeLines, length_splitOn, length_splitOn, ranged, count_replaceAll (by decide)
    (by decide) post.newline_not_mem_first, List.drop_zero] at short
  exact absurd short (Nat.lt_irrefl _)

/-- The suggestion is written as it stands exactly when neither the code nor the description
disturbs its block. -/
theorem inline_body_applies_iff
    (closed : post.Closed) :
    post.Applies ↔ post.Undisturbed := by
  have filled : "```suggestion".toList ≠ [] := by decide
  have longer : "```suggestion".toList.length < ("```suggestion:".toList ++ post.range).length := by
    rw [List.length_append]
    exact Nat.lt_of_lt_of_le (by decide) (Nat.le_add_right _ _)
  have kept : post.ranged (BodyEnv.improved post.suggestion) = BodyEnv.improved post.suggestion ↔
      ¬ "```suggestion".toList <:+: BodyEnv.improved post.suggestion :=
    replaceAll_eq_self_iff filled longer
  by_cases cut : ∃ line ∈ (post.ranged (BodyEnv.improved post.suggestion)).splitOn '\n',
      (Fence.mk '`' 3).closedBy line = true
  · constructor
    · exact fun applies => absurd applies (post.not_applies_of_fence closed cut)
    · intro undisturbed
      rw [kept.mpr undisturbed.noKeyword] at cut
      obtain ⟨line, member, closes⟩ := cut
      rw [undisturbed.noFence line member] at closes
      cases closes
  · have inside : ∀ line ∈ (post.ranged (BodyEnv.improved post.suggestion)).splitOn '\n',
        (Fence.mk '`' 3).closedBy line = false := by
      simpa using cut
    rw [Applies, native_lines,
      post.suggestionBlocks_eq (fencedBlocks_block closed post.opening_range inside (by decide))]
    constructor
    · rintro ⟨before, same, behind⟩
      have unchanged := congrArg (['\n'].intercalate ·) same
      simp only [codeLines, List.intercalate_splitOn] at unchanged
      rw [unchanged] at inside
      exact ⟨before, inside, kept.mp unchanged, behind⟩
    · intro undisturbed
      refine ⟨undisturbed.before, ?_, undisturbed.behind⟩
      rw [kept.mpr undisturbed.noKeyword, codeLines]

end InlinePost

namespace BodySample

/-- An English comment without a description. -/
def post (improvedCode : String) : InlinePost where
  env := { lower := List.map Char.toLower, isZh := false, collapsed := false }
  publisher :=
    { project := "group/app"
      mrIid := "7"
      renderInlineBody := fun _ _ => ""
      renderFallbackBody := fun _ => ""
      fallbackEnabled := true
      retryLimit := 0 }
  suggestion :=
    { relevantFile := "a.py"
      linesStart := 3
      linesEnd := 4
      existingCode := "x"
      improvedCode := improvedCode
      content := "" }
  fields :=
    { label := "bug"
      impact := "high"
      risk := ""
      severity := ""
      impactLevel := ""
      score := some 9
      oneSentenceSummary := "" }
  runId := "run"
  index := 1
  ordered := Nat.le_succ 3

end BodySample

open BodySample in
theorem plain_code_is_closed :
    (post "y\nz").Closed ∧ ((post "y\nz").Applies ↔ (post "y\nz").Undisturbed) :=
  have closed : (post "y\nz").Closed := by
    unfold InlinePost.Closed
    decide
  ⟨closed, (post "y\nz").inline_body_applies_iff closed⟩

open BodySample in
/-- Code with a fence of its own is cut off there. -/
theorem fenced_code_is_cut_off :
    ¬ (post "a\n```\nb").Applies := by
  refine (post "a\n```\nb").not_applies_of_fence ?_ ⟨"```".toList, by decide, by decide⟩
  unfold InlinePost.Closed
  decide

end MrAgent.InlineBody
