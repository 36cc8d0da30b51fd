import MrAgent.DiffPaging

namespace MrAgent

/-!
# Lines of the bytes and of the text

The total of a Diff is counted on its bytes, its lines are cut from the decoded
text. Decoding keeps the line feeds and carriage returns, so the lines differ
only where the text has another line break.
-/

/-- A line break of a text that is none for bytes. -/
def isForeignBreak (c : Char) : Bool :=
  isLineBreak c && c ≠ '\n' && c ≠ '\r'

/-- The lines of the Diff. -/
def RepoSnapshot.diffLines (snapshot : RepoSnapshot) : List (List Char) :=
  (splitBytes snapshot.diffBytes).map Utf8Replace.decode

/-- A line without the separators of bytes. -/
def Clean (line : List Char) : Prop :=
  '\n' ∉ line ∧ '\r' ∉ line

/-- Lines with a separator of bytes behind each but perhaps the last. -/
inductive Separated : List (List Char) → List Char → Prop where
  | nil : Separated [] []
  | last {line : List Char} : Clean line → line ≠ [] → Separated [line] line
  | cons {line separator text : List Char} {lines : List (List Char)} :
      Clean line →
      (∀ c ∈ separator, c = '\n' ∨ c = '\r') →
      (∀ start, splitLinesFrom start (separator ++ text) =
        start.reverse :: splitLinesFrom [] text) →
      Separated lines text →
      Separated (line :: lines) (line ++ (separator ++ text))

theorem clean_decode
    {line : List UInt8}
    (clean : ∀ byte ∈ line, byte ≠ 10 ∧ byte ≠ 13) :
    Clean (Utf8Replace.decode line) := by
  have absent : ∀ (c : Char) (value : UInt8), c.toNat = value.toNat → c.toNat < 0x80 →
      c.toNat ≠ 0 → (∀ byte ∈ line, byte ≠ value) → c ∉ Utf8Replace.decode line := by
    intro c value same ascii visible none member
    obtain ⟨byte, inLine, equal⟩ := Utf8Replace.mem_of_mem_decodeFrom member ascii visible
    exact none byte inLine (UInt8.toNat_inj.mp (equal.trans same))
  constructor
  · exact absent '\n' 10 rfl (by decide) (by decide) fun byte member => (clean byte member).1
  · exact absent '\r' 13 rfl (by decide) (by decide) fun byte member => (clean byte member).2

theorem separated_decode
    (line bytes : List UInt8)
    (clean : ∀ byte ∈ line, byte ≠ 10 ∧ byte ≠ 13) :
    Separated ((splitBytesFrom line bytes).map Utf8Replace.decode)
      (Utf8Replace.decode (line.reverse ++ bytes)) := by
  have cleanLine : ∀ line : List UInt8, (∀ byte ∈ line, byte ≠ 10 ∧ byte ≠ 13) →
      Clean (Utf8Replace.decode line.reverse) := by
    intro line clean
    exact clean_decode fun byte member => clean byte (List.mem_reverse.mp member)
  induction line, bytes using splitBytesFrom.induct with
  | case1 =>
      exact Separated.nil
  | case2 line filled =>
      rw [splitBytesFrom, List.append_nil]
      · refine Separated.last (cleanLine line clean) ?_
        intro none
        have empty := Utf8Replace.decode_eq_nil_iff.mp none
        exact filled (List.reverse_eq_nil_iff.mp empty)
      · exact filled
  | case3 line rest ih =>
      have further := ih fun byte member => absurd member List.not_mem_nil
      have read : Utf8Replace.decode (line.reverse ++ 13 :: 10 :: rest) =
          Utf8Replace.decode line.reverse ++ (['\r', '\n'] ++ Utf8Replace.decode rest) := by
        rw [Utf8Replace.decode_append_ascii (by decide)]
        have newline : (10 : UInt8).toNat < 0x80 := by decide
        have second := Utf8Replace.decode_append_ascii newline [] rest
        rw [List.nil_append] at second
        rw [second]
        rfl
      rw [splitBytesFrom, List.map_cons, read]
      refine Separated.cons (cleanLine line clean) (by simp) ?_ further
      intro start
      rw [List.cons_append, List.cons_append, splitLinesFrom.eq_3]
      rfl
  | case4 line byte rest notPair broken ih =>
      have further := ih fun byte member => absurd member List.not_mem_nil
      have ascii : byte.toNat < 0x80 := by
        rcases broken with rfl | rfl <;> decide
      rw [splitBytesFrom, if_pos broken, List.map_cons, Utf8Replace.decode_append_ascii ascii]
      · rcases broken with rfl | rfl
        · have ends : ∀ c ∈ ['\n'], c = '\n' ∨ c = '\r' := by simp
          refine Separated.cons (cleanLine line clean) ends ?_ further
          intro start
          exact splitLinesFrom_break (by decide) (by decide) start _
        · have ends : ∀ c ∈ ['\r'], c = '\n' ∨ c = '\r' := by simp
          refine Separated.cons (cleanLine line clean) ends ?_ further
          intro start
          refine splitLinesFrom_return ?_ start
          intro opened
          obtain ⟨byte, first, same⟩ :=
            Utf8Replace.head_of_decode opened (by decide) (by decide)
          have isNewline : byte = 10 := UInt8.toNat_inj.mp same
          obtain ⟨more, rfl⟩ := List.head?_eq_some_iff.mp first
          exact notPair more rfl (by rw [isNewline])
      · exact notPair
  | case5 line byte rest notPair plain ih =>
      rw [not_or] at plain
      rw [splitBytesFrom, if_neg (by rw [not_or]; exact plain)]
      · have further := ih fun other member => by
          rcases List.mem_cons.mp member with rfl | inLine
          · exact plain
          · exact clean other inLine
        rw [List.reverse_cons, List.append_assoc, List.singleton_append] at further
        exact further
      · exact notPair

namespace Separated

variable {lines : List (List Char)} {text : List Char}

theorem mem
    (separated : Separated lines text)
    {c : Char}
    (member : c ∈ text) :
    c = '\n' ∨ c = '\r' ∨ ∃ line ∈ lines, c ∈ line := by
  induction separated with
  | nil =>
      exact absurd member List.not_mem_nil
  | last _ _ =>
      exact Or.inr (Or.inr ⟨_, List.mem_singleton_self _, member⟩)
  | cons _ ends _ _ ih =>
      rcases List.mem_append.mp member with inLine | later
      · exact Or.inr (Or.inr ⟨_, List.mem_cons_self, inLine⟩)
      · rcases List.mem_append.mp later with inEnd | inRest
        · rcases ends c inEnd with newline | return_
          · exact Or.inl newline
          · exact Or.inr (Or.inl return_)
        · rcases ih inRest with newline | return_ | ⟨line, inLines, inLine⟩
          · exact Or.inl newline
          · exact Or.inr (Or.inl return_)
          · exact Or.inr (Or.inr ⟨line, List.mem_cons_of_mem _ inLines, inLine⟩)

variable {line : List Char}

theorem subset
    (separated : Separated lines text)
    (member : line ∈ lines) :
    Clean line ∧ ∀ c ∈ line, c ∈ text := by
  induction separated with
  | nil =>
      exact absurd member List.not_mem_nil
  | last clean _ =>
      rw [List.mem_singleton.mp member]
      exact ⟨clean, fun _ inLine => inLine⟩
  | cons clean _ _ _ ih =>
      rcases List.mem_cons.mp member with here | there
      · rw [here]
        exact ⟨clean, fun _ inLine => List.mem_append_left _ inLine⟩
      · have ⟨cleanThere, inText⟩ := ih there
        exact ⟨cleanThere, fun c inLine =>
          List.mem_append_right _ (List.mem_append_right _ (inText c inLine))⟩

theorem unbroken_iff
    (clean : Clean line) :
    unbroken line = true ↔ ∀ c ∈ line, isForeignBreak c = false := by
  rw [unbroken, List.all_eq_true]
  refine forall₂_congr fun c member => ?_
  have notNewline : c ≠ '\n' := fun same => clean.1 (same ▸ member)
  have notReturn : c ≠ '\r' := fun same => clean.2 (same ▸ member)
  simp [isForeignBreak, notNewline, notReturn]

theorem splitLinesFrom_eq
    (separated : Separated lines text)
    (plain : ∀ c ∈ text, isForeignBreak c = false) :
    splitLinesFrom [] text = lines := by
  induction separated with
  | nil =>
      rfl
  | last clean filled =>
      exact splitLinesFrom_last ((unbroken_iff clean).mpr plain) filled
  | cons clean _ cut _ ih =>
      have whole := (unbroken_iff clean).mpr fun c member => plain c (List.mem_append_left _ member)
      rw [splitLinesFrom_append whole, List.append_nil, cut, List.reverse_reverse,
        ih fun c member =>
          plain c (List.mem_append_right _ (List.mem_append_right _ member))]

theorem length_le
    (separated : Separated lines text) :
    lines.length ≤ (splitLinesFrom [] text).length := by
  have behind : ∀ (line start rest : List Char) (count : Nat), Clean line →
      (∀ start, count ≤ (splitLinesFrom start rest).length) →
      count ≤ (splitLinesFrom start (line ++ rest)).length := by
    intro line
    induction line with
    | nil =>
        exact fun start rest count _ bound => bound start
    | cons c line ih =>
        intro start rest count clean bound
        have cleanRest : Clean line :=
          ⟨fun member => clean.1 (List.mem_cons_of_mem _ member),
            fun member => clean.2 (List.mem_cons_of_mem _ member)⟩
        have notReturn : c ≠ '\r' := fun same => clean.2 (same ▸ List.mem_cons_self)
        rw [List.cons_append]
        by_cases broken : isLineBreak c = true
        · rw [splitLinesFrom_break broken notReturn, List.length_cons]
          exact Nat.le_succ_of_le (ih [] rest count cleanRest bound)
        · rw [splitLinesFrom_cons (Bool.not_eq_true _ ▸ broken)]
          exact ih (c :: start) rest count cleanRest bound
  induction separated with
  | nil =>
      exact Nat.le_refl 0
  | last _ filled =>
      rw [List.length_singleton]
      exact List.length_pos_of_ne_nil fun none => filled (splitLinesFrom_eq_nil none).2
  | cons clean _ cut _ ih =>
      refine behind _ _ _ _ clean fun start => ?_
      rw [cut, List.length_cons, List.length_cons]
      exact Nat.succ_le_succ ih

end Separated

namespace RepoSnapshot

variable (snapshot : RepoSnapshot)

/-- The lines that the pages are cut from. -/
def textLines : List (List Char) :=
  splitLines (String.ofList snapshot.diffText)

theorem separated : Separated snapshot.diffLines snapshot.diffText :=
  separated_decode [] snapshot.diffBytes fun _ member => absurd member List.not_mem_nil

theorem length_diffLines : snapshot.diffLines.length = snapshot.totalLines := by
  rw [diffLines, List.length_map, totalLines]

theorem textLines_eq_splitLinesFrom : snapshot.textLines = splitLinesFrom [] snapshot.diffText := by
  rw [textLines, splitLines, String.toList_ofList]

theorem totalLines_le : snapshot.totalLines ≤ snapshot.textLines.length := by
  rw [← length_diffLines, textLines_eq_splitLinesFrom]
  exact snapshot.separated.length_le

theorem plain_of_subset
    (subset : ∀ line ∈ snapshot.diffLines, line ∈ snapshot.textLines) :
    ∀ c ∈ snapshot.diffText, isForeignBreak c = false := by
  intro c member
  rcases snapshot.separated.mem member with rfl | rfl | ⟨line, inLines, inLine⟩
  · decide
  · decide
  · have ⟨clean, _⟩ := snapshot.separated.subset inLines
    have whole : unbroken line = true := unbroken_of_mem_splitLines (subset line inLines)
    exact (Separated.unbroken_iff clean).mp whole c inLine

theorem textLines_eq_diffLines
    (plain : ∀ c ∈ snapshot.diffText, isForeignBreak c = false) :
    snapshot.textLines = snapshot.diffLines := by
  rw [textLines_eq_splitLinesFrom]
  exact snapshot.separated.splitLinesFrom_eq plain

theorem textLines_eq_nil_iff : snapshot.textLines = [] ↔ snapshot.diffBytes = [] := by
  rw [textLines_eq_splitLinesFrom]
  constructor
  · intro none
    exact Utf8Replace.decode_eq_nil_iff.mp (splitLinesFrom_eq_nil none).2
  · intro empty
    rw [diffText, empty]
    rfl

theorem totalLines_eq_zero_iff : snapshot.totalLines = 0 ↔ snapshot.diffBytes = [] := by
  constructor
  · intro none
    have separated := snapshot.separated
    rw [← length_diffLines, List.length_eq_zero_iff] at none
    rw [none] at separated
    refine Utf8Replace.decode_eq_nil_iff.mp ?_
    change snapshot.diffText = []
    cases textIs : snapshot.diffText with
    | nil => rfl
    | cons c rest =>
        rcases separated.mem (textIs ▸ List.mem_cons_self) with newline | return_ | ⟨_, inNil, _⟩
        · rw [textIs] at separated
          cases separated
        · rw [textIs] at separated
          cases separated
        · exact absurd inNil List.not_mem_nil
  · intro empty
    rw [totalLines, empty]
    rfl

end RepoSnapshot

end MrAgent
