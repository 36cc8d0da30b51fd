import MrAgent.ChunkConservation
import MrAgent.NumberedExact

namespace MrAgent

/-!
# Line numbers in the parts of a hunk

Every part of a split hunk carries the header of the whole hunk, and its lines
are numbered from the start in that header. The numbers are those of the whole
hunk only when all context and added lines are in one part, together with a
line that changes something.
-/

/-! ## Labels of a rendering -/

/-- The context and added lines of a rendering with their numbers. -/
def labels (env : ReviewEnv) (file : ReviewFile) (rawHunk : List Char) :
    List (Int × List Char) :=
  ((writtenHunks env.digits (String.ofList rawHunk) (some file.info)).getD []).flatMap (·.newLines)

/-- A line of the new side, as the converter reads it. -/
def isNewSide (line : List Char) : Bool :=
  !isNoNewlineLine line && line.head? ≠ some '-'

/-- A line of the old side, as the converter reads it. -/
def isOldSide (line : List Char) : Bool :=
  !isNoNewlineLine line && line.head? ≠ some '+'

/-- A line that changes something, as the converter reads it. -/
def isChange (line : List Char) : Bool :=
  !isNoNewlineLine line && (line.head? = some '+' || line.head? = some '-')

/-- The number of context and added lines of a hunk. -/
def newSideCount (rawHunk : List Char) : Nat :=
  (splitLines (String.ofList rawHunk)).tail.countP isNewSide

namespace HunkScan

theorem run_lines
    (env : DigitEnv)
    {lines : List (List Char)}
    (plain : ∀ line ∈ lines, line ≠ [] ∧ startsHeader line = false)
    (scan : HunkScan)
    (isFirst : Bool) :
    run env scan isFirst lines =
      some
        { scan with
          newContent := scan.newContent ++ lines.filter isNewSide
          oldContent := scan.oldContent ++ lines.filter isOldSide } := by
  induction lines generalizing scan isFirst with
  | nil =>
      simp [run]
  | cons line rest ih =>
      obtain ⟨filled, body⟩ := plain line List.mem_cons_self
      have further := fun scan => ih
        (fun other member => plain other (List.mem_cons_of_mem _ member)) scan false
      rw [run]
      by_cases skipped : isNoNewlineLine line = true
      · rw [if_pos skipped, further]
        simp [isNewSide, isOldSide, skipped]
      · rw [if_neg skipped, body]
        simp only [Bool.false_eq_true, if_false, filled, decide_false, Bool.false_and]
        rw [further, content]
        by_cases plus : line.head? = some '+'
        · simp [isNewSide, isOldSide, skipped, plus]
        · by_cases minus : line.head? = some '-'
          · simp [isNewSide, isOldSide, skipped, minus]
          · simp [isNewSide, isOldSide, skipped, plus, minus]

end HunkScan

variable {found : HeaderMatch} {lines : List (List Char)}

variable {env : DigitEnv}

theorem writtenHunks_of_lines
    (info : PatchFile)
    (present : info.editType ≠ .deleted)
    {patch : String}
    {header : List Char}
    (opened : splitLines patch = header :: lines)
    (matched : env.matchHeader header = some found)
    (plain : ∀ line ∈ lines, line ≠ [] ∧ startsHeader line = false) :
    writtenHunks env patch (some info) =
      some (if isNoNewlineLine header = false ∧ lines.filter isNewSide ≠ [] then
        [numberedHunk header (env.number found.start2) (lines.filter isNewSide)
          (lines.filter isOldSide)]
      else []) := by
  have kept : (some info).filter (·.editType = .deleted) = none := by
    rw [Option.filter_some, if_neg]
    simpa using present
  have isHeader : startsHeader header = true :=
    startsHeader_of_matchHeader (by rw [matched]; rfl)
  have filled : header ≠ [] := by
    rintro rfl
    exact absurd isHeader (by decide)
  rw [writtenHunks, kept, opened, HunkScan.run]
  by_cases skipped : isNoNewlineLine header = true
  · simp only [skipped, if_true, HunkScan.run_lines env plain, Option.map_some]
    simp [HunkScan.close]
  · rw [Bool.not_eq_true] at skipped
    simp only [skipped, Bool.false_eq_true, if_false, isHeader, if_true, matched,
      HunkScan.run_lines env plain, Option.map_some]
    simp [HunkScan.close, HunkScan.enter, HunkScan.finish, HunkScan.hunk, filled]

theorem numberedHunk_newLines
    (header : List Char)
    (start : Int)
    (lines : List (List Char)) :
    (numberedHunk header start (lines.filter isNewSide) (lines.filter isOldSide)).newLines =
      if lines.any isChange then numberFrom start (lines.filter isNewSide) else [] := by
  have change : (((lines.filter isNewSide).any fun line => line.head? = some '+') ||
      (lines.filter isOldSide).any fun line => line.head? = some '-') = lines.any isChange := by
    rw [List.any_filter, List.any_filter, Bool.eq_iff_iff, Bool.or_eq_true, List.any_eq_true,
      List.any_eq_true, List.any_eq_true]
    constructor
    · rintro (⟨line, member, plus⟩ | ⟨line, member, minus⟩)
      · exact ⟨line, member, by simp_all [isNewSide, isChange]⟩
      · exact ⟨line, member, by simp_all [isOldSide, isChange]⟩
    · rintro ⟨line, member, changed⟩
      simp only [isChange, Bool.and_eq_true, Bool.not_eq_true', Bool.or_eq_true,
        decide_eq_true_eq] at changed
      rcases changed.2 with plus | minus
      · exact Or.inl ⟨line, member, by simp [isNewSide, changed.1, plus]⟩
      · exact Or.inr ⟨line, member, by simp [isOldSide, changed.1, minus]⟩
  rw [numberedHunk]
  simp only [change]

variable {file : ReviewFile}

theorem labels_of_lines
    {env : ReviewEnv}
    (present : file.editType ≠ .deleted)
    {rawHunk header : List Char}
    (opened : splitLines (String.ofList rawHunk) = header :: lines)
    (matched : env.digits.matchHeader header = some found)
    (unmarked : isNoNewlineLine header = false)
    (plain : ∀ line ∈ lines, line ≠ [] ∧ startsHeader line = false) :
    labels env file rawHunk =
      if lines.any isChange then
        numberFrom (env.digits.number found.start2) (lines.filter isNewSide)
      else [] := by
  rw [labels, writtenHunks_of_lines file.info present opened matched plain, Option.getD_some]
  by_cases empty : lines.filter isNewSide = []
  · have unwritten : ¬ (isNoNewlineLine header = false ∧ lines.filter isNewSide ≠ []) :=
      fun both => both.2 empty
    rw [if_neg unwritten, empty, numberFrom_eq_nil.mpr rfl, ite_self]
    rfl
  · rw [if_pos ⟨unmarked, empty⟩, List.flatMap_singleton, numberedHunk_newLines]

theorem labels_of_skipped
    {env : ReviewEnv}
    {rawHunk header : List Char}
    (opened : splitLines (String.ofList rawHunk) = header :: lines)
    (matched : env.digits.matchHeader header = some found)
    (plain : ∀ line ∈ lines, line ≠ [] ∧ startsHeader line = false)
    (skipped : file.editType = .deleted ∨ isNoNewlineLine header = true) :
    labels env file rawHunk = [] := by
  by_cases deleted : file.editType = .deleted
  · have removed : (some file.info).filter (·.editType = .deleted) = some file.info := by
      rw [Option.filter_some, if_pos]
      exact decide_eq_true deleted
    rw [labels, writtenHunks, removed]
    rfl
  · have marked := skipped.resolve_left deleted
    have unwritten : ¬ (isNoNewlineLine header = false ∧ lines.filter isNewSide ≠ []) := by
      rintro ⟨unmarked, _⟩
      rw [marked] at unmarked
      cases unmarked
    rw [labels, writtenHunks_of_lines file.info deleted opened matched plain, if_neg unwritten]
    rfl

/-! ## Numbers of a slice -/

variable (start : Int)

theorem length_numberFrom
    (lines : List (List Char)) :
    (numberFrom start lines).length = lines.length := by
  rw [numberFrom, List.length_map, List.length_zipIdx]

theorem numberFrom_append
    (first second : List (List Char)) :
    numberFrom start (first ++ second) =
      numberFrom start first ++ numberFrom (start + first.length) second := by
  induction first generalizing start with
  | nil =>
      simp [numberFrom]
  | cons line rest ih =>
      rw [List.cons_append, numberFrom_cons, ih, numberFrom_cons,
        List.cons_append, List.length_cons]
      have shifted : start + 1 + (rest.length : Int) = start + ((rest.length + 1 : Nat) : Int) := by
        omega
      rw [shifted]

theorem slice_numberFrom
    (first middle last : List (List Char)) :
    ((numberFrom start (first ++ middle ++ last)).drop first.length).take middle.length =
      numberFrom (start + first.length) middle := by
  rw [numberFrom_append, numberFrom_append, List.append_assoc]
  rw [List.drop_left' (length_numberFrom start first),
    List.take_left' (length_numberFrom _ middle)]

theorem numberFrom_inj
    {start other : Int} :
    numberFrom start lines = numberFrom other lines ↔ lines = [] ∨ start = other := by
  cases lines with
  | nil =>
      simp [numberFrom]
  | cons line rest =>
      rw [numberFrom_cons, numberFrom_cons]
      constructor
      · intro same
        injection same with heads
        injection heads with numbers
        exact Or.inr numbers
      · rintro (impossible | rfl)
        · cases impossible
        · rfl

/-! ## The condition -/

/--
All context and added lines lie in one run of lines that is read as a part and
changes something.
-/
def OneWindow (fits : List (List Char) → Bool) (body : List (List Char)) : Prop :=
  ∃ lead window rest,
    body = lead ++ window ++ rest ∧
      (∀ line ∈ lead ++ rest, isNewSide line = false) ∧
      window.any isChange = true ∧
      (lead = [] ∨ ∃ line, window.head? = some line ∧ fits (lead ++ [line]) = false) ∧
      GreedyGroups.Grown fits window

/-- A group without context and added lines, or the only group with some. -/
def GroupKept (before : List (List (List Char))) (group : List (List Char)) : Prop :=
  group.filter isNewSide = [] ∨
    group.any isChange = true ∧ before.flatten.filter isNewSide = []

theorem filter_isNewSide_eq_nil :
    lines.filter isNewSide = [] ↔ ∀ line ∈ lines, isNewSide line = false := by
  rw [List.filter_eq_nil_iff]
  exact forall₂_congr fun line _ => Bool.not_eq_true _ ▸ Iff.rfl

section Windows

variable {fits : List (List Char) → Bool} {body : List (List Char)}

theorem groups_of_window
    (constant : ∀ lines others, lines ≠ [] → others ≠ [] →
      (∀ line ∈ lines ++ others, line ∈ body ∧ isNewSide line = false) → fits lines = fits others)
    (first : ∀ line, body.head? = some line → fits [line] = true)
    (window : OneWindow fits body) :
    ∃ prior group later,
      GreedyGroups.groups fits body = prior ++ group :: later ∧
        group.any isChange = true ∧
        (∀ line ∈ prior.flatten ++ later.flatten, isNewSide line = false) := by
  obtain ⟨lead, window, rest, whole, hidden, changed, start, grown⟩ := window
  cases window with
  | nil =>
      cases changed
  | cons head tail =>
      -- The rest of the window goes into the part that its first line opens.
      have opened : GreedyGroups.groupFrom fits [head] (tail ++ rest) =
          GreedyGroups.groupFrom fits (head :: tail) rest := by
        refine GreedyGroups.groupFrom_append ?_ rest
        intro start item within
        refine Or.inr (grown ([head] ++ start) item (by simp) ?_)
        rw [List.append_assoc, List.singleton_append]
        exact List.cons_prefix_cons.mpr ⟨rfl, within⟩
      obtain ⟨more, later, grouped, behind⟩ : ∃ more later,
          GreedyGroups.groupFrom fits (head :: tail) rest = (head :: tail ++ more) :: later ∧
            rest = more ++ later.flatten :=
        GreedyGroups.groupFrom_eq_cons (List.cons_ne_nil head tail) rest
      have stillChanged : (head :: tail ++ more).any isChange = true := by
        rw [List.any_append, changed]
        rfl
      have afterHidden : ∀ line ∈ later.flatten, isNewSide line = false := by
        intro line member
        refine hidden line (List.mem_append_right _ ?_)
        rw [behind]
        exact List.mem_append_right _ member
      by_cases empty : lead = []
      · refine ⟨[], _, later, ?_, stillChanged, afterHidden⟩
        rw [whole, empty, List.nil_append, List.cons_append, GreedyGroups.groups,
          GreedyGroups.groupFrom_extend (Or.inl rfl), List.nil_append, opened, grouped]
        rfl
      · obtain ⟨line, isHead, full⟩ := start.resolve_left empty
        injection isHead with same
        have leadHidden : ∀ line ∈ lead, isNewSide line = false := fun line member =>
          hidden line (List.mem_append_left _ member)
        have inBody : ∀ line ∈ lead, line ∈ body := by
          intro line member
          rw [whole, List.append_assoc]
          exact List.mem_append_left _ member
        obtain ⟨leader, others, leads⟩ := List.exists_cons_of_ne_nil empty
        have leaderFits : fits [leader] = true := by
          refine first leader ?_
          rw [whole, leads]
          rfl
        have read : GreedyGroups.groupFrom fits [] (lead ++ (head :: tail ++ rest)) =
            GreedyGroups.groupFrom fits lead (head :: tail ++ rest) := by
          refine GreedyGroups.groupFrom_append ?_ _
          intro start item within
          refine Or.inr ?_
          have same := constant (start ++ [item]) [leader] (by simp) (by simp) ?_
          · rw [List.nil_append, same, leaderFits]
          · intro line member
            have inLead : line ∈ lead := by
              rcases List.mem_append.mp member with inStart | isLeader
              · exact within.subset inStart
              · rw [leads, List.mem_singleton.mp isLeader]
                exact List.mem_cons_self
            exact ⟨inBody line inLead, leadHidden line inLead⟩
        refine ⟨[lead], _, later, ?_, stillChanged, ?_⟩
        · rw [whole, List.append_assoc, GreedyGroups.groups, read, List.cons_append,
            GreedyGroups.groupFrom_close empty (same ▸ full), opened, grouped]
          rfl
        · intro line member
          rcases List.mem_append.mp member with inLead | inLater
          · refine leadHidden line ?_
            rw [List.flatten_singleton] at inLead
            exact inLead
          · exact afterHidden line inLater

theorem groupKept_of_window
    (constant : ∀ lines others, lines ≠ [] → others ≠ [] →
      (∀ line ∈ lines ++ others, line ∈ body ∧ isNewSide line = false) → fits lines = fits others)
    (first : ∀ line, body.head? = some line → fits [line] = true)
    (window : OneWindow fits body)
    {before after : List (List (List Char))}
    {group : List (List Char)}
    (cut : GreedyGroups.groups fits body = before ++ group :: after) :
    GroupKept before group := by
  obtain ⟨prior, main, later, grouped, changed, hidden⟩ :=
    groups_of_window constant first window
  have kept : GroupKept prior main := by
    refine Or.inr ⟨changed, ?_⟩
    rw [filter_isNewSide_eq_nil]
    exact fun line member => hidden line (List.mem_append_left _ member)
  have unshown : group ∈ prior ∨ group ∈ later → GroupKept before group := by
    intro outside
    refine Or.inl ?_
    rw [filter_isNewSide_eq_nil]
    intro line member
    rcases outside with inPrior | inLater
    · exact hidden line (List.mem_append_left _ (List.mem_flatten.mpr ⟨group, inPrior, member⟩))
    · exact hidden line (List.mem_append_right _ (List.mem_flatten.mpr ⟨group, inLater, member⟩))
  rw [grouped] at cut
  rcases List.append_eq_append_iff.mp cut with ⟨gap, ahead, here⟩ | ⟨gap, ahead, here⟩
  · cases gap with
    | nil =>
        injection here with same
        rw [List.append_nil] at ahead
        rw [ahead, ← same]
        exact kept
    | cons next gap =>
        injection here with _ others
        exact unshown (Or.inr (others ▸ List.mem_append_right gap List.mem_cons_self))
  · cases gap with
    | nil =>
        injection here with same
        rw [List.append_nil] at ahead
        rw [← ahead, same]
        exact kept
    | cons next gap =>
        injection here with same
        exact unshown (Or.inl (ahead ▸ same ▸ List.mem_append_right before List.mem_cons_self))

theorem window_of_groupKept
    (constant : ∀ lines others, lines ≠ [] → others ≠ [] →
      (∀ line ∈ lines ++ others, line ∈ body ∧ isNewSide line = false) → fits lines = fits others)
    (within : ∀ group ∈ GreedyGroups.groups fits body, fits group = true)
    (shown : ∃ line ∈ body, isNewSide line = true)
    (kept : ∀ before group after, GreedyGroups.groups fits body = before ++ group :: after →
      GroupKept before group) :
    OneWindow fits body := by
  obtain ⟨line, inBody, isShown⟩ := shown
  have whole : (GreedyGroups.groups fits body).flatten = body := GreedyGroups.flatten_groups body
  rw [← whole] at inBody
  obtain ⟨group, inGroups, inGroup⟩ := List.mem_flatten.mp inBody
  obtain ⟨before, after, cut⟩ := List.append_of_mem inGroups
  have ⟨changed, beforeHidden⟩ : group.any isChange = true ∧
      before.flatten.filter isNewSide = [] := by
    refine (kept before group after cut).resolve_left fun none => ?_
    rw [filter_isNewSide_eq_nil.mp none line inGroup] at isShown
    cases isShown
  have afterHidden : ∀ other ∈ after.flatten, isNewSide other = false := by
    intro other member
    obtain ⟨next, inAfter, inNext⟩ := List.mem_flatten.mp member
    obtain ⟨middle, last, split⟩ := List.append_of_mem inAfter
    have later : GreedyGroups.groups fits body = (before ++ group :: middle) ++ next :: last := by
      rw [cut, split, List.append_assoc, List.cons_append]
    rcases kept _ next last later with none | ⟨_, none⟩
    · exact filter_isNewSide_eq_nil.mp none other inNext
    · have behind : line ∈ (before ++ group :: middle).flatten :=
        List.mem_flatten.mpr ⟨group, List.mem_append_right _ List.mem_cons_self, inGroup⟩
      rw [filter_isNewSide_eq_nil.mp none line behind] at isShown
      cases isShown
  have ofBefore : ∀ part ∈ before, part ≠ [] ∧ fits part = true ∧
      ∀ other ∈ part, other ∈ body ∧ isNewSide other = false := by
    intro part member
    have inAll : part ∈ GreedyGroups.groups fits body := by
      rw [cut]
      exact List.mem_append_left _ member
    refine ⟨GreedyGroups.ne_nil_of_mem_groupFrom inAll, within part inAll, ?_⟩
    intro other inPart
    refine ⟨?_, ?_⟩
    · rw [← whole]
      exact List.mem_flatten.mpr ⟨part, inAll, inPart⟩
    · exact filter_isNewSide_eq_nil.mp beforeHidden other
        (List.mem_flatten.mpr ⟨part, member, inPart⟩)
  have chain := GreedyGroups.isChain_groups fits body
  refine ⟨before.flatten, group, after.flatten, ?_, ?_, changed, ?_, ?_⟩
  · rw [← whole, cut, List.flatten_append, List.flatten_cons, List.append_assoc]
  · intro other member
    rcases List.mem_append.mp member with earlier | later
    · exact filter_isNewSide_eq_nil.mp beforeHidden other earlier
    · exact afterHidden other later
  · rcases List.eq_nil_or_concat before with none | ⟨prior, last, ended⟩
    · exact Or.inl (by rw [none]; rfl)
    · -- A second part before the window would have been closed although it fits.
      rw [List.concat_eq_append] at ended
      rcases List.eq_nil_or_concat prior with none | ⟨front, closed, earlier⟩
      · rw [cut, ended, none, List.nil_append, List.singleton_append, List.isChain_cons_cons]
          at chain
        rw [ended, none, List.nil_append, List.flatten_singleton]
        exact Or.inr chain.1
      · exfalso
        rw [List.concat_eq_append] at earlier
        have closedIn := ofBefore closed (by rw [ended, earlier]; simp)
        have lastIn := ofBefore last (by rw [ended]; simp)
        rw [cut, ended, earlier] at chain
        simp only [List.append_assoc, List.singleton_append] at chain
        obtain ⟨item, isHead, full⟩ := (List.isChain_append_cons_cons.mp chain).2.1
        have inLast : item ∈ last := List.mem_of_mem_head? (Option.mem_def.mpr isHead)
        have same := constant (closed ++ [item]) closed (by simp) closedIn.1 ?_
        · rw [full, closedIn.2.1] at same
          cases same
        · intro other member
          simp only [List.mem_append, List.mem_singleton] at member
          rcases member with (inClosed | rfl) | inClosed
          · exact closedIn.2.2 other inClosed
          · exact lastIn.2.2 other inLast
          · exact closedIn.2.2 other inClosed
  · exact GreedyGroups.grown_of_mem_groups inGroups

end Windows

/-! ## Parts of a hunk -/

theorem afterStart_eq_some
    {start line rest : List Char}
    (found : afterStart start line = some rest) :
    line = start ++ rest := by
  rw [afterStart] at found
  split at found
  · next opened =>
      injection found with same
      rw [← same]
      exact (List.prefix_iff_eq_append.mp opened).symm
  · cases found

theorem isHunkHeader_of_matchHeader
    {line : List Char}
    (matched : env.matchHeader line = some found) :
    isHunkHeader env line = true := by
  have spaced : ∀ (c : Char) (rest : List Char), isSpace c = false →
      takeSpaces (' ' :: c :: rest) = some (c :: rest) := by
    intro c rest solid
    have blank : isSpace ' ' = true := by decide
    simp [takeSpaces, blank, solid]
  simp only [DigitEnv.matchHeader, Option.bind_eq_bind, Option.bind_eq_some_iff] at matched
  obtain ⟨opened, open_, old, oldDigits, middle, plus, new, newDigits, rest, closed, _⟩ := matched
  have first := afterStart_eq_some open_
  have second := afterStart_eq_some plus
  have third := afterStart_eq_some closed
  have begun : afterStart ['@', '@'] line = some (' ' :: '-' :: opened) := by
    rw [first]
    exact afterStart_append ['@', '@'] (' ' :: '-' :: opened)
  have minus : afterStart ['-'] ('-' :: opened) = some opened := afterStart_append ['-'] opened
  have plusSign : afterStart ['+'] ('+' :: middle) = some middle := afterStart_append ['+'] middle
  have ended : afterStart ['@', '@'] ('@' :: '@' :: rest) = some rest :=
    afterStart_append ['@', '@'] rest
  have second' : (env.takeSize old.2).2 = ' ' :: '+' :: middle := second
  have third' : (env.takeSize new.2).2 = ' ' :: '@' :: '@' :: rest := third
  rw [isHunkHeader]
  simp only [begun, Option.bind_eq_bind, Option.bind_some, spaced '-' opened (by decide), minus,
    oldDigits, second', spaced '+' middle (by decide), plusSign, newDigits, third',
    spaced '@' ('@' :: rest) (by decide), ended]
  rfl

namespace ReviewEnv

variable {env : ReviewEnv} {rawHunk header : List Char} {body : List (List Char)}
  {found : HeaderMatch}

theorem hunkHeader_of_matchHeader
    (opened : splitLines (String.ofList rawHunk) = header :: body)
    (matched : env.digits.matchHeader header = some found) :
    env.hunkHeader rawHunk = some header ∧ env.hunkBody rawHunk = body := by
  have isHeader := isHunkHeader_of_matchHeader matched
  have first : env.hunkHeader rawHunk = some header := by
    rw [hunkHeader, opened, List.head?_cons, Option.filter_some, if_pos isHeader]
  refine ⟨first, ?_⟩
  rw [hunkBody, first, opened]
  rfl

variable {lines : List (List Char)}

theorem splitLines_partText
    (opened : splitLines (String.ofList rawHunk) = header :: body)
    (matched : env.digits.matchHeader header = some found)
    (plain : ∀ line ∈ body, line ≠ [] ∧ startsHeader line = false)
    (within : ∀ line ∈ lines, line ∈ body) :
    splitLines (String.ofList (partText (some header) lines)) = header :: lines := by
  have isHeader : startsHeader header = true :=
    startsHeader_of_matchHeader (by rw [matched]; rfl)
  have whole : ∀ line ∈ header :: body, unbroken line = true := by
    intro line member
    rw [← opened] at member
    exact unbroken_of_mem_splitLines member
  have kept : ∀ line ∈ header :: lines, unbroken line = true ∧ line ≠ [] := by
    intro line member
    rcases List.mem_cons.mp member with here | there
    · refine ⟨here ▸ whole header List.mem_cons_self, ?_⟩
      rintro rfl
      rw [← here] at isHeader
      exact absurd isHeader (by decide)
    · have inBody := within line there
      exact ⟨whole line (List.mem_cons_of_mem _ inBody), (plain line inBody).1⟩
  have filled : ¬ (header :: lines).getLast? = some [] := fun empty =>
    (kept [] (List.mem_of_getLast? empty)).2 rfl
  have read := splitLinesFrom_intercalate fun line member => (kept line member).1
  rw [if_neg filled] at read
  rw [splitLines, String.toList_ofList]
  exact read

variable {file : ReviewFile} {usableTokens : Int}

theorem partTokens_of_hidden
    (present : file.editType ≠ .deleted)
    (opened : splitLines (String.ofList rawHunk) = header :: body)
    (matched : env.digits.matchHeader header = some found)
    (plain : ∀ line ∈ body, line ≠ [] ∧ startsHeader line = false)
    (hidden : ∀ line ∈ lines, line ∈ body ∧ isNewSide line = false) :
    env.partTokens file true (some header) lines =
      some (env.countTokens (strip (writtenText (some file.info) []))) := by
  have read := splitLines_partText opened matched plain fun line member => (hidden line member).1
  have none : lines.filter isNewSide = [] :=
    filter_isNewSide_eq_nil.mpr fun line member => (hidden line member).2
  have written := writtenHunks_of_lines file.info present read matched
    fun line member => plain line (hidden line member).1
  have unwritten : ¬ (isNoNewlineLine header = false ∧ lines.filter isNewSide ≠ []) :=
    fun both => both.2 none
  rw [if_neg unwritten] at written
  rw [partTokens, render, renderNumbered, if_neg present, decouple_eq, written]
  rfl

theorem fits_first_of_splitBody
    {tokens : List (List Char) → Option Int}
    {line : List Char}
    {rest : List (List Char)}
    {bodies : List (List (List Char))}
    (split : splitBody tokens usableTokens [] (line :: rest) = .ok bodies) :
    fitsWithin tokens usableTokens [line] = true := by
  rw [splitBody, List.nil_append] at split
  rw [fitsWithin]
  cases counted : tokens [line] with
  | none =>
      rw [counted] at split
      cases split
  | some count =>
      rw [counted] at split
      dsimp only at split
      by_cases fitting : count ≤ usableTokens
      · exact decide_eq_true fitting
      · rw [if_neg fitting] at split
        cases split

theorem text_of_makeUnit
    (present : file.editType ≠ .deleted)
    {hunkIndex partIndex partCount : Nat}
    {parent : String}
    {part : List Char}
    {unit : DiffReviewUnit}
    (made : env.makeUnit file true hunkIndex parent part partIndex partCount = some unit) :
    (writtenHunks env.digits (String.ofList unit.rawHunk) (some file.info)).map
        (fun hunks => strip (writtenText (some file.info) hunks)) = some unit.text := by
  obtain ⟨rendered, shown, filled⟩ := Option.bind_eq_some_iff.mp made
  injection filled with same
  rw [← same]
  rw [render, renderNumbered, if_neg present, decouple_eq] at shown
  obtain ⟨text, written, pair⟩ := Option.bind_eq_some_iff.mp shown
  injection pair with pair
  rw [← pair]
  obtain ⟨hunks, found, asText⟩ := Option.map_eq_some_iff.mp written
  rw [found, Option.map_some, asText]

end ReviewEnv

/-- Every part labels its lines with the numbers of the whole hunk. -/
def PartsKeepLabels
    (env : ReviewEnv)
    (file : ReviewFile)
    (rawHunk : List Char)
    (parts : List (List Char)) : Prop :=
  ∀ before part after, parts = before ++ part :: after →
    labels env file part =
      ((labels env file rawHunk).drop (before.map newSideCount).sum).take (newSideCount part)

/-- When the parts of a hunk keep its line numbers. -/
def LabelsKept
    (env : ReviewEnv)
    (file : ReviewFile)
    (usableTokens : Int)
    (header : List Char)
    (body : List (List Char)) : Prop :=
  file.editType = .deleted ∨ isNoNewlineLine header = true ∨
    (∀ line ∈ body, isNewSide line = false) ∨ (∀ line ∈ body, isChange line = false) ∨
    OneWindow
      (ReviewEnv.fitsWithin (env.partTokens file true (some header)) usableTokens) body

section Parts

variable {env : ReviewEnv} {file : ReviewFile} {rawHunk header : List Char}
  {body : List (List Char)} {found : HeaderMatch}

theorem part_labels_iff
    (present : file.editType ≠ .deleted)
    (unmarked : isNoNewlineLine header = false)
    (opened : splitLines (String.ofList rawHunk) = header :: body)
    (matched : env.digits.matchHeader header = some found)
    (plain : ∀ line ∈ body, line ≠ [] ∧ startsHeader line = false)
    {before : List (List (List Char))}
    {group : List (List Char)}
    (after : List (List (List Char)))
    (cut : body = before.flatten ++ group ++ after.flatten) :
    labels env file (ReviewEnv.partText (some header) group) =
        ((labels env file rawHunk).drop
          ((before.map (ReviewEnv.partText (some header))).map newSideCount).sum).take
          (newSideCount (ReviewEnv.partText (some header) group)) ↔
      (∀ line ∈ body, isChange line = false) ∨ GroupKept before group := by
  have read : ∀ lines : List (List Char), (∀ line ∈ lines, line ∈ body) →
      splitLines (String.ofList (ReviewEnv.partText (some header) lines)) = header :: lines :=
    fun lines within => ReviewEnv.splitLines_partText opened matched plain within
  have ofGroup : ∀ line ∈ group, line ∈ body := by
    intro line member
    rw [cut]
    exact List.mem_append_left _ (List.mem_append_right _ member)
  have counted : ∀ lines : List (List Char), (∀ line ∈ lines, line ∈ body) →
      newSideCount (ReviewEnv.partText (some header) lines) = (lines.filter isNewSide).length := by
    intro lines within
    rw [newSideCount, read lines within, List.tail_cons, List.countP_eq_length_filter]
  have offset : ((before.map (ReviewEnv.partText (some header))).map newSideCount).sum =
      (before.flatten.filter isNewSide).length := by
    rw [List.filter_flatten, List.length_flatten, List.map_map, List.map_map]
    congr 1
    refine List.map_congr_left fun part member => counted part fun line inPart => ?_
    rw [cut]
    exact List.mem_append_left _ (List.mem_append_left _
      (List.mem_flatten.mpr ⟨part, member, inPart⟩))
  rw [labels_of_lines present (read group ofGroup) matched unmarked
      (fun line member => plain line (ofGroup line member)),
    labels_of_lines present opened matched unmarked plain, counted group ofGroup, offset]
  by_cases change : body.any isChange = true
  · have changes : ¬ ∀ line ∈ body, isChange line = false := by
      intro none
      obtain ⟨line, member, changed⟩ := List.any_eq_true.mp change
      rw [none line member] at changed
      cases changed
    have sides : body.filter isNewSide = before.flatten.filter isNewSide ++
        group.filter isNewSide ++ after.flatten.filter isNewSide := by
      rw [cut, List.filter_append, List.filter_append]
    rw [if_pos change, sides, slice_numberFrom, or_iff_right changes, GroupKept]
    by_cases here : group.any isChange = true
    · rw [if_pos here, numberFrom_inj]
      refine or_congr_right ?_
      constructor
      · intro same
        refine ⟨here, List.length_eq_zero_iff.mp ?_⟩
        omega
      · rintro ⟨_, none⟩
        rw [none]
        simp
    · rw [if_neg here, eq_comm, numberFrom_eq_nil]
      refine ⟨Or.inl, fun either => either.resolve_right fun both => here both.1⟩
  · have none : ∀ line ∈ body, isChange line = false := by
      intro line member
      rw [← Bool.not_eq_true]
      exact fun changed => change (List.any_eq_true.mpr ⟨line, member, changed⟩)
    have noneHere : ¬ group.any isChange = true := by
      intro changed
      obtain ⟨line, member, isChanged⟩ := List.any_eq_true.mp changed
      rw [none line (ofGroup line member)] at isChanged
      cases isChanged
    rw [if_neg change, if_neg noneHere, List.drop_nil, List.take_nil]
    exact ⟨fun _ => Or.inl none, fun _ => rfl⟩

variable {bodies : List (List (List Char))}

theorem partsKeepLabels_iff
    (present : file.editType ≠ .deleted)
    (unmarked : isNoNewlineLine header = false)
    (opened : splitLines (String.ofList rawHunk) = header :: body)
    (matched : env.digits.matchHeader header = some found)
    (plain : ∀ line ∈ body, line ≠ [] ∧ startsHeader line = false)
    (whole : bodies.flatten = body) :
    PartsKeepLabels env file rawHunk (bodies.map (ReviewEnv.partText (some header))) ↔
      (∀ line ∈ body, isChange line = false) ∨
        ∀ before group after, bodies = before ++ group :: after → GroupKept before group := by
  have each : ∀ before group after, bodies = before ++ group :: after →
      (labels env file (ReviewEnv.partText (some header) group) =
        ((labels env file rawHunk).drop
          ((before.map (ReviewEnv.partText (some header))).map newSideCount).sum).take
          (newSideCount (ReviewEnv.partText (some header) group)) ↔
        (∀ line ∈ body, isChange line = false) ∨ GroupKept before group) := by
    intro before group after isGroup
    refine part_labels_iff present unmarked opened matched plain after ?_
    rw [← whole, isGroup, List.flatten_append, List.flatten_cons, List.append_assoc]
  constructor
  · intro kept
    by_cases none : ∀ line ∈ body, isChange line = false
    · exact Or.inl none
    · refine Or.inr fun before group after isGroup => ?_
      have same := kept (before.map _) _ (after.map _)
        (by rw [isGroup, List.map_append, List.map_cons])
      exact ((each before group after isGroup).mp same).resolve_left none
  · intro kept before part after isPart
    obtain ⟨front, back, isSplit, rfl, isBack⟩ := List.map_eq_append_iff.mp isPart
    obtain ⟨group, rest, rfl, rfl, _⟩ := List.map_eq_cons_iff.mp isBack
    refine (each front group rest isSplit).mpr ?_
    rcases kept with none | groups
    · exact Or.inl none
    · exact Or.inr (groups front group rest isSplit)

theorem partsKeepLabels_of_skipped
    (opened : splitLines (String.ofList rawHunk) = header :: body)
    (matched : env.digits.matchHeader header = some found)
    (plain : ∀ line ∈ body, line ≠ [] ∧ startsHeader line = false)
    (skipped : file.editType = .deleted ∨ isNoNewlineLine header = true)
    (lines : ∀ group ∈ bodies, ∀ line ∈ group, line ∈ body) :
    PartsKeepLabels env file rawHunk (bodies.map (ReviewEnv.partText (some header))) := by
  intro before part after isPart
  have member : part ∈ bodies.map (ReviewEnv.partText (some header)) := by
    rw [isPart]
    exact List.mem_append_right _ List.mem_cons_self
  obtain ⟨group, inBodies, rfl⟩ := List.mem_map.mp member
  have ofGroup := lines group inBodies
  rw [labels_of_skipped opened matched plain skipped, List.drop_nil, List.take_nil]
  exact labels_of_skipped (ReviewEnv.splitLines_partText opened matched plain ofGroup) matched
    (fun line inGroup => plain line (ofGroup line inGroup)) skipped

theorem fits_constant
    {usableTokens : Int}
    (present : file.editType ≠ .deleted)
    (opened : splitLines (String.ofList rawHunk) = header :: body)
    (matched : env.digits.matchHeader header = some found)
    (plain : ∀ line ∈ body, line ≠ [] ∧ startsHeader line = false)
    {lines others : List (List Char)}
    (hidden : ∀ line ∈ lines ++ others, line ∈ body ∧ isNewSide line = false) :
    ReviewEnv.fitsWithin (env.partTokens file true (some header)) usableTokens lines =
      ReviewEnv.fitsWithin (env.partTokens file true (some header)) usableTokens others := by
  have tokens := ReviewEnv.partTokens_of_hidden present opened matched plain
    fun line member => hidden line (List.mem_append_left others member)
  have otherTokens := ReviewEnv.partTokens_of_hidden present opened matched plain
    fun line member => hidden line (List.mem_append_right lines member)
  rw [ReviewEnv.fitsWithin, ReviewEnv.fitsWithin, tokens, otherTokens]

end Parts

/-- The text of a part is its numbered rendering, and its numbers are right exactly when all
context and added lines are in one part that changes something. -/
theorem split_hunk_labels_iff
    (env : ReviewEnv)
    (file : ReviewFile)
    (usableTokens : Int)
    (hunkIndex : Nat)
    (rawHunk header : List Char)
    (body : List (List Char))
    (found : HeaderMatch)
    (units : List DiffReviewUnit)
    (opened : splitLines (String.ofList rawHunk) = header :: body)
    (matched : env.digits.matchHeader header = some found)
    (plain : ∀ line ∈ body, line ≠ [] ∧ startsHeader line = false)
    (split : env.splitOversizedHunk file true usableTokens hunkIndex rawHunk = .ok units) :
    (∀ unit ∈ units, file.editType ≠ .deleted →
        (writtenHunks env.digits (String.ofList unit.rawHunk) (some file.info)).map
          (fun hunks => strip (writtenText (some file.info) hunks)) = some unit.text) ∧
      (PartsKeepLabels env file rawHunk (units.map (·.rawHunk)) ↔
        LabelsKept env file usableTokens header body) := by
  obtain ⟨bodies, cut, made⟩ := ReviewEnv.splitOversizedHunk_ok split
  have parts := ReviewEnv.map_rawHunk_of_split made
  have ⟨isHeader, isBody⟩ := ReviewEnv.hunkHeader_of_matchHeader opened matched
  rw [isHeader] at parts
  rw [isHeader, isBody] at cut
  constructor
  · intro unit member present
    obtain ⟨part, _, one⟩ := FallibleProgram.source_of_mapM made member
    exact ReviewEnv.text_of_makeUnit present one
  let fits := ReviewEnv.fitsWithin (env.partTokens file true (some header)) usableTokens
  have ⟨grouped, within⟩ := ReviewEnv.groups_of_splitBody [] (Or.inl rfl) cut
  change bodies = GreedyGroups.groups fits body at grouped
  have whole : bodies.flatten = body := by
    rw [grouped, GreedyGroups.flatten_groups]
  have lines : ∀ group ∈ bodies, ∀ line ∈ group, line ∈ body := by
    intro group inBodies line member
    rw [← whole]
    exact List.mem_flatten.mpr ⟨group, inBodies, member⟩
  rw [parts]
  by_cases skipped : file.editType = .deleted ∨ isNoNewlineLine header = true
  · constructor
    · intro _
      rcases skipped with deleted | marked
      · exact Or.inl deleted
      · exact Or.inr (Or.inl marked)
    · exact fun _ => partsKeepLabels_of_skipped opened matched plain skipped lines
  · rw [not_or] at skipped
    have ⟨present, notMarked⟩ := skipped
    have constant : ∀ lines others : List (List Char), lines ≠ [] → others ≠ [] →
        (∀ line ∈ lines ++ others, line ∈ body ∧ isNewSide line = false) →
        fits lines = fits others := fun _ _ _ _ hidden =>
      fits_constant present opened matched plain hidden
    have first : ∀ line, body.head? = some line → fits [line] = true := by
      intro line isHead
      obtain ⟨rest, rfl⟩ := List.head?_eq_some_iff.mp isHead
      exact ReviewEnv.fits_first_of_splitBody cut
    rw [partsKeepLabels_iff present (Bool.not_eq_true _ ▸ notMarked) opened matched plain whole,
      LabelsKept, or_iff_right present, or_iff_right notMarked]
    constructor
    · rintro (none | kept)
      · exact Or.inr (Or.inl none)
      · by_cases shown : ∃ line ∈ body, isNewSide line = true
        · rw [grouped] at kept within
          exact Or.inr (Or.inr (window_of_groupKept constant within shown kept))
        · refine Or.inl fun line member => ?_
          rw [← Bool.not_eq_true]
          exact fun isShown => shown ⟨line, member, isShown⟩
    · rintro (hidden | none | window)
      · refine Or.inr fun before group after isGroup => Or.inl ?_
        rw [filter_isNewSide_eq_nil]
        intro line member
        refine hidden line (lines group ?_ line member)
        rw [isGroup]
        exact List.mem_append_right _ List.mem_cons_self
      · exact Or.inl none
      · refine Or.inr fun before group after isGroup => ?_
        exact groupKept_of_window constant first window (grouped ▸ isGroup)

namespace SplitSample

/-- Two added lines. -/
def rawHunk : List Char :=
  "@@ -1,0 +1,2 @@\n+a\n+b".toList

/-- The parts that fit into 48 tokens. -/
def parts : List (List Char) :=
  ["@@ -1,0 +1,2 @@\n+a".toList, "@@ -1,0 +1,2 @@\n+b".toList]

theorem split :
    ∃ units,
      ReviewSample.env.splitOversizedHunk ReviewSample.file true 48 0 rawHunk = .ok units ∧
        units.map (·.rawHunk) = parts := by
  have found : (ReviewSample.env.splitOversizedHunk ReviewSample.file true 48 0
      rawHunk).toOption.map (·.map (·.rawHunk)) = some parts := by
    decide
  obtain ⟨units, same, texts⟩ := Option.map_eq_some_iff.mp found
  exact ⟨units, FallibleProgram.toOption_eq_some same, texts⟩

end SplitSample

/-- The second line of the file is labelled as the first. -/
theorem second_part_restarts_numbering :
    ∃ units,
      ReviewSample.env.splitOversizedHunk ReviewSample.file true 48 0 SplitSample.rawHunk =
          .ok units ∧
        units.map (fun unit => labels ReviewSample.env ReviewSample.file unit.rawHunk) =
          [[(1, "+a".toList)], [(1, "+b".toList)]] ∧
        labels ReviewSample.env ReviewSample.file SplitSample.rawHunk =
          [(1, "+a".toList), (2, "+b".toList)] ∧
        ¬ PartsKeepLabels ReviewSample.env ReviewSample.file SplitSample.rawHunk
          (units.map (·.rawHunk)) := by
  obtain ⟨units, same, texts⟩ := SplitSample.split
  have whole : labels ReviewSample.env ReviewSample.file SplitSample.rawHunk =
      [(1, "+a".toList), (2, "+b".toList)] := by
    decide +kernel
  have each : SplitSample.parts.map (labels ReviewSample.env ReviewSample.file) =
      [[(1, "+a".toList)], [(1, "+b".toList)]] := by
    decide +kernel
  refine ⟨units, same, ?_, whole, ?_⟩
  · rw [← each, ← texts, List.map_map]
    rfl
  · intro kept
    rw [texts] at kept
    have second := kept ["@@ -1,0 +1,2 @@\n+a".toList] "@@ -1,0 +1,2 @@\n+b".toList [] rfl
    rw [whole] at second
    revert second
    decide +kernel

theorem two_added_lines_have_labels_iff :
    ∃ units,
      ReviewSample.env.splitOversizedHunk ReviewSample.file true 48 0 SplitSample.rawHunk =
          .ok units ∧
        (PartsKeepLabels ReviewSample.env ReviewSample.file SplitSample.rawHunk
            (units.map (·.rawHunk)) ↔
          LabelsKept ReviewSample.env ReviewSample.file 48 "@@ -1,0 +1,2 @@".toList
            ["+a".toList, "+b".toList]) := by
  obtain ⟨units, same, _⟩ := SplitSample.split
  have opened : splitLines (String.ofList SplitSample.rawHunk) =
      "@@ -1,0 +1,2 @@".toList :: ["+a".toList, "+b".toList] := by
    decide +kernel
  have plain : ∀ line ∈ ["+a".toList, "+b".toList],
      line ≠ [] ∧ startsHeader line = false := by
    decide +kernel
  exact ⟨units, same, (split_hunk_labels_iff ReviewSample.env ReviewSample.file 48 0
    SplitSample.rawHunk _ _ ⟨['1'], some ['0'], ['1'], some ['2'], []⟩ units opened rfl plain
    same).2⟩

end MrAgent
