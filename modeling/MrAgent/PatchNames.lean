import MrAgent.GitPatch
import MrAgent.PatchPaths

namespace MrAgent

/-!
# Names in header lines

The pattern takes the text of a header line for a path after its own stripping
of `a/` and `b/`. Git quotes, strips one component of any name, stops at a tab
and squashes slashes. Both take the same path only from plain names.
-/

/-! ## Stripped texts -/

variable (text : List Char)

theorem strip_eq_append :
    ∃ front behind, text = front ++ (strip text ++ behind) ∧
      (∀ c ∈ front, isSpace c = true) ∧ ∀ c ∈ behind, isSpace c = true := by
  obtain ⟨behind, split⟩ := List.rdropWhile_prefix isSpace (text.dropWhile isSpace)
  refine ⟨text.takeWhile isSpace, behind, ?_, fun c member => List.mem_takeWhile_imp member, ?_⟩
  · rw [strip_eq_rdropWhile, split, List.takeWhile_append_dropWhile]
  · intro c member
    have cut : behind = (text.dropWhile isSpace).rtakeWhile isSpace := by
      have whole : (text.dropWhile isSpace).rdropWhile isSpace ++
          (text.dropWhile isSpace).rtakeWhile isSpace = text.dropWhile isSpace :=
        List.rdropWhile_append_rtakeWhile
      exact List.append_cancel_left (split.trans whole.symm)
    rw [cut] at member
    exact List.mem_rtakeWhile_imp member

theorem strip_append_blank
    {behind : List Char}
    (blank : ∀ c ∈ behind, isSpace c = true) :
    strip (text ++ behind) = strip text := by
  rw [strip, strip, List.dropWhile_append]
  split
  · next empty =>
      have none : behind.dropWhile isSpace = [] := List.dropWhile_eq_nil_iff.mpr blank
      rw [none, List.isEmpty_iff.mp empty]
  · rw [List.reverse_append, List.dropWhile_append_of_pos]
    intro c member
    exact blank c (List.mem_reverse.mp member)

theorem strip_blank_append
    {front : List Char}
    (blank : ∀ c ∈ front, isSpace c = true)
    (text : List Char) :
    strip (front ++ text) = strip text := by
  rw [strip, strip, List.dropWhile_append_of_pos blank]

/-- Some character is no white space. -/
def Visible (text : List Char) : Prop :=
  ∃ c ∈ text, isSpace c = false

theorem dropWhile_append_visible
    {text : List Char}
    (visible : Visible text)
    (rest : List Char) :
    (text ++ rest).dropWhile isSpace = text.dropWhile isSpace ++ rest := by
  rw [List.dropWhile_append]
  split
  · next empty =>
      obtain ⟨c, member, notSpace⟩ := visible
      have space := List.dropWhile_eq_nil_iff.mp (List.isEmpty_iff.mp empty) c member
      rw [notSpace] at space
      cases space
  · rfl

theorem strip_between
    {front behind : List Char}
    (visible : Visible front)
    (visibleBehind : Visible behind)
    (middle : List Char) :
    strip (front ++ (middle ++ behind)) =
      front.dropWhile isSpace ++ (middle ++ behind.rdropWhile isSpace) := by
  have reversed : Visible behind.reverse := by
    obtain ⟨c, member, notSpace⟩ := visibleBehind
    exact ⟨c, List.mem_reverse.mpr member, notSpace⟩
  rw [strip, dropWhile_append_visible visible, ← List.append_assoc, List.reverse_append,
    dropWhile_append_visible reversed, List.reverse_append, List.reverse_reverse, List.append_assoc]
  rfl

theorem strip_eq_self_iff :
    strip text = text ↔
      (∀ c, text.head? = some c → isSpace c = false) ∧
        ∀ c, text.getLast? = some c → isSpace c = false := by
  constructor
  · intro same
    constructor
    · intro c isHead
      have whole : text.dropWhile isSpace = text := by
        have shorter := (List.rdropWhile_prefix isSpace (text.dropWhile isSpace)).length_le
        rw [← strip_eq_rdropWhile, same] at shorter
        exact (List.dropWhile_suffix isSpace).eq_of_length_le shorter
      have first := List.head?_dropWhile_not isSpace text
      rw [whole, isHead] at first
      exact Bool.eq_false_iff.mpr (by simpa using first)
    · intro c isLast
      have filled : text ≠ [] := by
        intro none
        rw [none] at isLast
        cases isLast
      have kept := List.rdropWhile_last_not (p := isSpace) (l := text.dropWhile isSpace)
      rw [strip_eq_rdropWhile] at same
      have notSpace := kept (by rw [same]; exact filled)
      have last : ((text.dropWhile isSpace).rdropWhile isSpace).getLast? = some c := by
        rw [same]
        exact isLast
      rw [List.getLast?_eq_some_getLast (by rw [same]; exact filled)] at last
      rw [Option.some.inj last] at notSpace
      exact Bool.eq_false_iff.mpr notSpace
  · rintro ⟨first, last⟩
    have front : text.dropWhile isSpace = text := by
      cases text with
      | nil => rfl
      | cons c rest =>
          rw [List.dropWhile_cons_of_neg (by simp [first c rfl])]
    rw [strip_eq_rdropWhile, front, List.rdropWhile_eq_self_iff]
    intro filled
    rw [last _ (List.getLast?_eq_some_getLast filled)]
    decide

/-! ## What a line spells -/

/-- The text begins with `a/` or `b/`. -/
def Rooted (text : List Char) : Prop :=
  text.take 2 = "a/".toList ∨ text.take 2 = "b/".toList

instance (text : List Char) : Decidable (Rooted text) :=
  inferInstanceAs (Decidable (_ ∨ _))

/-- The text without `a/` or `b/`. -/
def unroot (text : List Char) : List Char :=
  if Rooted text then text.drop 2 else text

theorem rooted_iff :
    Rooted text ↔ ∃ letter rest, text = letter :: '/' :: rest ∧ (letter = 'a' ∨ letter = 'b') := by
  match text with
  | [] | [_] => simp [Rooted]
  | first :: second :: rest =>
      have both : Rooted (first :: second :: rest) ↔ (first = 'a' ∨ first = 'b') ∧ second = '/' := by
        simp [Rooted, or_and_right]
      rw [both]
      constructor
      · rintro ⟨letter, rfl⟩
        exact ⟨first, rest, rfl, letter⟩
      · rintro ⟨letter, others, same, isLetter⟩
        cases same
        exact ⟨isLetter, rfl⟩

theorem unroot_cons
    {letter : Char}
    (isLetter : letter = 'a' ∨ letter = 'b')
    (rest : List Char) :
    unroot (letter :: '/' :: rest) = rest :=
  if_pos ((rooted_iff _).mpr ⟨letter, rest, rfl, isLetter⟩)

/-- A header line spells a path: its text has blanks around it and at most two roots in front. -/
def Spells (text path : List Char) : Prop :=
  strip (unroot (strip text)) ≠ "/dev/null".toList ∧
    unroot (strip (unroot (strip text))) = path

instance (text path : List Char) : Decidable (Spells text path) :=
  inferInstanceAs (Decidable (_ ∧ _))

theorem cleanPath_eq_some_iff
    (group path : List Char) :
    cleanPath group = some path ↔
      strip group ≠ "/dev/null".toList ∧ unroot (strip group) = path := by
  rw [cleanPath]
  by_cases null : strip group = "/dev/null".toList
  · simp [null]
  · have value : (if Rooted (strip group) then some ((strip group).drop 2)
        else some (strip group)) = some (unroot (strip group)) := by
      rw [unroot]
      split <;> rfl
    rw [if_neg null]
    change (if Rooted (strip group) then some ((strip group).drop 2)
      else some (strip group)) = some path ↔ _
    rw [value, Option.some.injEq]
    exact (and_iff_right null).symm

theorem cleanPath_lineGroup_iff
    (text path : List Char) :
    cleanPath (lineGroup (text.dropWhile isSpace)) = some path ↔ Spells text path := by
  rw [cleanPath_eq_some_iff, Spells]
  have stripped : strip (text.dropWhile isSpace) = strip text := by
    rw [strip, strip, List.dropWhile_idempotent]
  by_cases rooted : Rooted (text.dropWhile isSpace)
  · obtain ⟨letter, rest, isText, isLetter⟩ := (rooted_iff _).mp rooted
    have front : Visible [letter, '/'] := ⟨'/', by simp, by decide⟩
    have letterVisible : isSpace letter = false := by
      rcases isLetter with rfl | rfl <;> decide
    by_cases blank : ∀ c ∈ rest, isSpace c = true
    · -- Nothing visible stands behind the root.
      have none : strip rest = [] := by
        have all : rest.dropWhile isSpace = [] := List.dropWhile_eq_nil_iff.mpr blank
        rw [strip, all]
        rfl
      have root : strip text = [letter, '/'] := by
        rw [← stripped, isText]
        change strip ([letter, '/'] ++ rest) = _
        rw [strip_append_blank _ blank, strip_eq_self_iff]
        refine ⟨?_, ?_⟩
        · rintro c isHead
          cases isHead
          exact letterVisible
        · intro c isLast
          have slash : '/' = c := Option.some.inj isLast
          rw [← slash]
          decide
      have inner : strip (unroot (strip text)) = [] := by
        rw [root, unroot_cons isLetter]
        rfl
      rw [inner, isText]
      have group : unroot (strip (lineGroup (letter :: '/' :: rest))) = [] ∧
          strip (lineGroup (letter :: '/' :: rest)) ≠ "/dev/null".toList := by
        rw [lineGroup]
        split
        · rw [List.drop_succ_cons, List.drop_succ_cons, List.drop_zero, none]
          exact ⟨rfl, by decide⟩
        · rw [← isText, stripped, root]
          exact ⟨unroot_cons isLetter [], by rcases isLetter with rfl | rfl <;> decide⟩
      have empty : unroot [] = [] := rfl
      rw [group.1, empty]
      exact and_congr_left fun _ => iff_of_true group.2 (by decide)
    · push Not at blank
      obtain ⟨c, member, notSpace⟩ := blank
      have visible : Visible rest := ⟨c, member, Bool.eq_false_iff.mpr notSpace⟩
      have filled : rest ≠ [] := List.ne_nil_of_mem member
      have outer : strip text = letter :: '/' :: rest.rdropWhile isSpace := by
        rw [← stripped, isText]
        change strip ([letter, '/'] ++ ([] ++ rest)) = _
        rw [strip_between front visible, List.dropWhile_cons_of_neg (by simp [letterVisible])]
        rfl
      have cut : strip (rest.rdropWhile isSpace) = strip rest := by
        obtain ⟨behind, whole⟩ := List.rdropWhile_prefix isSpace rest
        have blank : ∀ c ∈ behind, isSpace c = true := by
          intro c inBehind
          have same : behind = rest.rtakeWhile isSpace := by
            have both : rest.rdropWhile isSpace ++ rest.rtakeWhile isSpace = rest :=
              List.rdropWhile_append_rtakeWhile
            exact List.append_cancel_left (whole.trans both.symm)
          exact List.mem_rtakeWhile_imp (same ▸ inBehind)
        conv_rhs => rw [← whole, strip_append_blank _ blank]
      have group : lineGroup (text.dropWhile isSpace) = rest := by
        rw [lineGroup, isText]
        exact if_pos ⟨isText ▸ rooted, filled⟩
      rw [group, outer, unroot_cons isLetter, cut]
  · have group : lineGroup (text.dropWhile isSpace) = text.dropWhile isSpace :=
      if_neg fun both => rooted both.1
    have outer : ¬ Rooted (strip text) := by
      intro stillRooted
      obtain ⟨behind, whole⟩ := List.rdropWhile_prefix isSpace (text.dropWhile isSpace)
      rw [← strip_eq_rdropWhile] at whole
      obtain ⟨letter, rest, isStrip, isLetter⟩ := (rooted_iff _).mp stillRooted
      refine rooted ((rooted_iff _).mpr ⟨letter, rest ++ behind, ?_, isLetter⟩)
      rw [← whole, isStrip]
      rfl
    have same : unroot (strip text) = strip text := if_neg outer
    rw [group, stripped, same, strip_strip, same]

/-! ## Squashed slashes -/

theorem countP_squashFrom
    {counted : Char → Bool}
    (slash : counted '/' = false)
    (behindSlash : Bool)
    (path : List Char) :
    (squashFrom behindSlash path).countP counted = path.countP counted := by
  induction path generalizing behindSlash with
  | nil => rfl
  | cons c rest ih =>
      rw [squashFrom]
      split
      · next dropped =>
          rw [ih, List.countP_cons_of_neg]
          rw [dropped.2, slash]
          decide
      · rw [List.countP_cons, List.countP_cons, ih]

variable {c : Char}

theorem mem_of_mem_squashFrom
    {behindSlash : Bool}
    {path : List Char}
    (member : c ∈ squashFrom behindSlash path) :
    c ∈ path := by
  induction path generalizing behindSlash with
  | nil => exact member
  | cons first rest ih =>
      rw [squashFrom] at member
      split at member
      · exact List.mem_cons_of_mem _ (ih member)
      · rcases List.mem_cons.mp member with rfl | later
        · exact List.mem_cons_self
        · exact List.mem_cons_of_mem _ (ih later)

theorem length_squashFrom_le
    (behindSlash : Bool)
    (path : List Char) :
    (squashFrom behindSlash path).length ≤ path.length := by
  induction path generalizing behindSlash with
  | nil => exact Nat.le_refl _
  | cons c rest ih =>
      rw [squashFrom]
      split
      · exact Nat.le_succ_of_le (ih true)
      · exact Nat.succ_le_succ (ih _)

theorem squashFrom_concat
    (behindSlash : Bool)
    (path : List Char)
    {last : Char}
    (notSlash : last ≠ '/') :
    squashFrom behindSlash (path ++ [last]) = squashFrom behindSlash path ++ [last] := by
  induction path generalizing behindSlash with
  | nil =>
      change squashFrom behindSlash [last] = [last]
      rw [squashFrom, if_neg fun both => notSlash both.2]
      rfl
  | cons c rest ih =>
      rw [List.cons_append, squashFrom, squashFrom]
      split
      · exact ih true
      · rw [ih]
        rfl

/-! ## Plain names -/

/-- The text names the path plainly: `a/` or `b/` and the path, blanks around it. -/
structure NamesPlainly (text path : List Char) : Prop where
  written : ∃ blanks letter behind, text = blanks ++ (letter :: '/' :: (path ++ behind)) ∧
    (∀ c ∈ blanks, isSpace c = true) ∧ (letter = 'a' ∨ letter = 'b') ∧
    ∀ c ∈ behind, isSpace c = true
  filled : path ≠ []
  trimmed : strip path = path
  rootless : ¬ Rooted path
  notNull : path ≠ "/dev/null".toList

theorem NamesPlainly.spells
    {text path : List Char}
    (plain : NamesPlainly text path) :
    Spells text path := by
  obtain ⟨blanks, letter, behind, rfl, blank, isLetter, blankBehind⟩ := plain.written
  have ends := (strip_eq_self_iff path).mp plain.trimmed
  have root : strip (blanks ++ (letter :: '/' :: (path ++ behind))) = letter :: '/' :: path := by
    have assoc : letter :: '/' :: (path ++ behind) = (letter :: '/' :: path) ++ behind := rfl
    rw [strip_blank_append blank, assoc, strip_append_blank _ blankBehind, strip_eq_self_iff]
    refine ⟨?_, ?_⟩
    · intro c isHead
      have same : letter = c := Option.some.inj isHead
      rw [← same]
      rcases isLetter with rfl | rfl <;> decide
    · intro c isLast
      obtain ⟨front, last, isPath⟩ := path.eq_nil_or_concat'.resolve_left plain.filled
      refine ends.2 c ?_
      rw [isPath] at isLast ⊢
      have assoc : letter :: '/' :: (front ++ [last]) = (letter :: '/' :: front) ++ [last] := rfl
      rw [assoc, List.getLast?_append] at isLast
      rw [List.getLast?_append]
      exact isLast
  have inner : strip (unroot (strip (blanks ++ (letter :: '/' :: (path ++ behind))))) = path := by
    rw [root, unroot_cons isLetter, plain.trimmed]
  rw [Spells, inner]
  exact ⟨plain.notNull, if_neg plain.rootless⟩

theorem behindRoot_eq_some
    {name path : List Char}
    (found : behindRoot name = some path) :
    ∃ first rest, name = first ++ '/' :: rest ∧ '/' ∉ first ∧ rest ≠ [] ∧
      path = squashSlash rest := by
  have first : '/' ∉ name.takeWhile (· ≠ '/') := by
    intro member
    simpa using List.mem_takeWhile_imp member
  have whole : name = name.takeWhile (· ≠ '/') ++ name.dropWhile (· ≠ '/') :=
    List.takeWhile_append_dropWhile.symm
  rw [behindRoot] at found
  cases behind : name.dropWhile (· ≠ '/') with
  | nil =>
      rw [behind] at found
      cases found
  | cons c rest =>
      have slash := List.head?_dropWhile_not (· ≠ '/') name
      rw [behind] at slash found whole
      have isSlash : c = '/' := by simpa using slash
      dsimp only at found
      split at found
      · cases found
      · next filled => exact ⟨_, rest, isSlash ▸ whole, first, filled, (Option.some.inj found).symm⟩

/-! ## The path of git and the path that is spelled -/

theorem unroot_suffix :
    unroot text <:+ text := by
  rw [unroot]
  split
  · exact List.drop_suffix 2 text
  · exact List.suffix_refl text

theorem Spells.visible_end
    {text path : List Char}
    (spells : Spells text path)
    {front : List Char}
    {last : Char}
    (isPath : path = front ++ [last]) :
    isSpace last = false := by
  obtain ⟨before, whole⟩ := unroot_suffix (strip (unroot (strip text)))
  rw [spells.2, isPath] at whole
  have isLast : (strip (unroot (strip text))).getLast? = some last := by
    rw [← whole, ← List.append_assoc, List.getLast?_append]
    rfl
  exact isSpace_getLast_strip isLast

theorem mem_unroot
    (notSlash : c ≠ '/')
    {front behind : List Char}
    (filled : front ≠ []) :
    c ∈ unroot (front ++ c :: behind) := by
  rw [unroot]
  split
  · next rooted =>
      obtain ⟨letter, rest, same, _⟩ := (rooted_iff _).mp rooted
      match front with
      | [] => exact absurd rfl filled
      | [_] =>
          have isSlash := List.cons.inj (List.cons.inj same).2
          exact absurd isSlash.1 notSlash
      | _ :: _ :: front =>
          exact List.mem_append_right _ List.mem_cons_self
  · exact List.mem_append_right _ List.mem_cons_self

theorem dropWhile_slash
    (first rest : List Char) :
    (first ++ '/' :: rest).dropWhile isSpace = first.dropWhile isSpace ++ '/' :: rest := by
  rw [List.dropWhile_append]
  split
  · next empty =>
      rw [List.isEmpty_iff.mp empty, List.dropWhile_cons_of_neg (by decide)]
      rfl
  · rfl

theorem notMem_dropWhile
    {text : List Char}
    (absent : c ∉ text) :
    c ∉ text.dropWhile isSpace :=
  fun member => absent ((List.dropWhile_suffix isSpace).subset member)

theorem root_of_rooted
    {first rest : List Char}
    (noSlash : '/' ∉ first)
    (rooted : Rooted (first ++ '/' :: rest)) :
    ∃ letter, first = [letter] ∧ (letter = 'a' ∨ letter = 'b') := by
  obtain ⟨letter, others, same, isLetter⟩ := (rooted_iff _).mp rooted
  match first with
  | [] =>
      have isSlash := (List.cons.inj same).1
      rcases isLetter with rfl | rfl <;> cases isSlash
  | [only] =>
      rw [(List.cons.inj same).1]
      exact ⟨letter, rfl, isLetter⟩
  | _ :: next :: _ =>
      have isSlash := (List.cons.inj (List.cons.inj same).2).1
      exact absurd (isSlash ▸ by simp) noSlash

theorem Spells.mem_stop
    {name rest behind path : List Char}
    {first : List Char}
    {stop : Char}
    (spells : Spells (name ++ stop :: behind) path)
    (isName : name = first ++ '/' :: rest)
    (noSlash : '/' ∉ first)
    (visible : Visible rest)
    (visibleBehind : Visible behind)
    (notSlash : stop ≠ '/') :
    stop ∈ path := by
  have visibleName : Visible name := ⟨'/', by simp [isName], by decide⟩
  have outer : strip (name ++ stop :: behind) =
      name.dropWhile isSpace ++ stop :: behind.rdropWhile isSpace :=
    strip_between visibleName visibleBehind [stop]
  have behindLeft : Visible (behind.rdropWhile isSpace) := by
    have filled : behind.rdropWhile isSpace ≠ [] := by
      rw [Ne, List.rdropWhile_eq_nil_iff]
      intro blank
      obtain ⟨c, member, notSpace⟩ := visibleBehind
      have space := blank c member
      rw [notSpace] at space
      cases space
    have last := List.rdropWhile_last_not isSpace behind filled
    exact ⟨_, List.getLast_mem filled, Bool.eq_false_iff.mpr last⟩
  -- Without its root the text still has something visible before the stop.
  obtain ⟨front, isFront, visibleFront⟩ : ∃ front,
      unroot (strip (name ++ stop :: behind)) = front ++ stop :: behind.rdropWhile isSpace ∧
        Visible front := by
    rw [outer, isName]
    rw [dropWhile_slash, List.append_assoc, List.cons_append]
    by_cases rooted : Rooted (first.dropWhile isSpace ++
        '/' :: (rest ++ stop :: behind.rdropWhile isSpace))
    · obtain ⟨letter, single, isLetter⟩ := root_of_rooted (notMem_dropWhile noSlash) rooted
      rw [single]
      exact ⟨rest, unroot_cons isLetter _, visible⟩
    · refine ⟨first.dropWhile isSpace ++ '/' :: rest, ?_, '/', by simp, by decide⟩
      rw [List.append_assoc, List.cons_append]
      exact if_neg rooted
  have inner : strip (unroot (strip (name ++ stop :: behind))) =
      front.dropWhile isSpace ++
        stop :: (behind.rdropWhile isSpace).rdropWhile isSpace := by
    rw [isFront]
    exact strip_between visibleFront behindLeft [stop]
  rw [← spells.2, inner]
  refine mem_unroot notSlash ?_
  intro none
  obtain ⟨c, member, notSpace⟩ := visibleFront
  have space := List.dropWhile_eq_nil_iff.mp none c member
  rw [notSpace] at space
  cases space

theorem namesPlainly_of_spells
    {first rest behind : List Char}
    (noSlash : '/' ∉ first)
    (filled : rest ≠ [])
    (noStop : ∀ c ∈ rest, c ≠ '\t' ∧ c ≠ '\r')
    (stops : ∀ c, behind.head? = some c → c = '\t' ∨ c = '\r')
    (spells : Spells ((first ++ '/' :: rest) ++ behind) (squashSlash rest)) :
    NamesPlainly ((first ++ '/' :: rest) ++ behind) (squashSlash rest) := by
  -- The name ends visibly, and only blanks follow it.
  obtain ⟨front, last, isRest⟩ := rest.eq_nil_or_concat'.resolve_left filled
  have lastVisible : isSpace last = false := by
    by_cases isSlash : last = '/'
    · rw [isSlash]
      decide
    · have isPath : squashSlash rest = squashFrom false front ++ [last] := by
        rw [isRest]
        exact squashFrom_concat false front isSlash
      exact spells.visible_end isPath
  have visible : Visible rest := ⟨last, isRest ▸ by simp, lastVisible⟩
  have blankBehind : ∀ c ∈ behind, isSpace c = true := by
    by_contra someVisible
    push Not at someVisible
    obtain ⟨c, member, notSpace⟩ := someVisible
    cases behind with
    | nil => cases member
    | cons stop behind =>
        have isStop := stops stop rfl
        have stopSpace : isSpace stop = true := by
          rcases isStop with rfl | rfl <;> decide
        have notSlash : stop ≠ '/' := by
          rintro rfl
          exact absurd stopSpace (by decide)
        have visibleBehind : Visible behind := by
          rcases List.mem_cons.mp member with rfl | later
          · exact absurd stopSpace notSpace
          · exact ⟨c, later, Bool.eq_false_iff.mpr notSpace⟩
        have inPath := spells.mem_stop rfl noSlash visible visibleBehind notSlash
        have distinct := noStop stop (mem_of_mem_squashFrom inPath)
        rcases isStop with same | same
        · exact distinct.1 same
        · exact distinct.2 same
  have outer : strip ((first ++ '/' :: rest) ++ behind) = first.dropWhile isSpace ++ '/' :: rest := by
    rw [strip_append_blank _ blankBehind, strip_eq_rdropWhile, dropWhile_slash, isRest,
      List.rdropWhile_eq_self_iff]
    intro _
    rw [List.getLast_append_of_ne_nil _ (by simp), List.getLast_cons (by simp),
      List.getLast_append_singleton, lastVisible]
    decide
  rw [Spells, outer] at spells
  by_cases rooted : Rooted (first.dropWhile isSpace ++ '/' :: rest)
  · obtain ⟨letter, single, isLetter⟩ := root_of_rooted (notMem_dropWhile noSlash) rooted
    rw [single, List.singleton_append, unroot_cons isLetter] at spells
    -- Neither blanks nor a second root nor slashes have been dropped.
    have trimmed : strip rest = rest := by
      obtain ⟨before, after, whole, blankBefore, blankAfter⟩ := strip_eq_append rest
      have spaces : (unroot (strip rest)).countP isSpace = (strip rest).countP isSpace := by
        rw [unroot]
        split
        · next again =>
            obtain ⟨letter, others, isStrip, isLetter⟩ := (rooted_iff _).mp again
            rw [isStrip, List.drop_succ_cons, List.drop_succ_cons, List.drop_zero,
              List.countP_cons_of_neg, List.countP_cons_of_neg]
            · decide
            · rcases isLetter with rfl | rfl <;> decide
        · rfl
      rw [spells.2, squashSlash, countP_squashFrom (by decide)] at spaces
      have counted := congrArg (List.countP isSpace) whole
      rw [List.countP_append, List.countP_append, List.countP_eq_length.mpr blankBefore,
        List.countP_eq_length.mpr blankAfter, spaces] at counted
      have noneBefore : before = [] := List.length_eq_zero_iff.mp (by omega)
      have noneAfter : after = [] := List.length_eq_zero_iff.mp (by omega)
      rw [noneBefore, noneAfter, List.append_nil, List.nil_append] at whole
      exact whole.symm
    rw [trimmed] at spells
    have rootless : ¬ Rooted rest := by
      intro again
      obtain ⟨letter, others, isOthers, isLetter⟩ := (rooted_iff _).mp again
      have letters : (squashFrom false rest).countP (· ≠ '/') = rest.countP (· ≠ '/') :=
        countP_squashFrom (by decide) false rest
      rw [← squashSlash, ← spells.2, isOthers, unroot_cons isLetter,
        List.countP_cons_of_pos, List.countP_cons_of_neg] at letters
      · omega
      · simp
      · rcases isLetter with rfl | rfl <;> decide
    have same : squashSlash rest = rest := by
      rw [← spells.2]
      exact if_neg rootless
    rw [same]
    refine ⟨⟨first.takeWhile isSpace, letter, behind, ?_, ?_, isLetter, blankBehind⟩, filled,
      trimmed, rootless, spells.1⟩
    · conv_lhs => rw [← List.takeWhile_append_dropWhile (p := isSpace) (l := first), single]
      simp only [List.append_assoc, List.cons_append, List.nil_append]
    · exact fun c member => List.mem_takeWhile_imp member
  · -- Without a root the spelled text is longer than the path.
    have unchanged : unroot (first.dropWhile isSpace ++ '/' :: rest) =
        first.dropWhile isSpace ++ '/' :: rest := if_neg rooted
    have stripped : strip (first.dropWhile isSpace ++ '/' :: rest) =
        first.dropWhile isSpace ++ '/' :: rest := by
      rw [← outer, strip_strip]
    have length := congrArg List.length spells.2
    rw [unchanged, stripped, unchanged, List.length_append, List.length_cons] at length
    have shorter := length_squashFrom_le false rest
    rw [squashSlash] at length
    omega

theorem not_spells_quoted
    {pieces : List NamePiece}
    {behind path : List Char}
    (found : behindRoot (pieces.map NamePiece.char) = some path) :
    ¬ Spells (quotedText pieces ++ behind) path := by
  intro spells
  obtain ⟨front, after, whole, blank, blankAfter⟩ := strip_eq_append (quotedText pieces ++ behind)
  have noFront : front = [] := by
    cases front with
    | nil => rfl
    | cons c front =>
        have quote := (List.cons.inj whole).1
        have space := blank c List.mem_cons_self
        rw [← quote] at space
        exact absurd space (by decide)
  rw [noFront, List.nil_append] at whole
  -- The closing quote is not stripped.
  have long : (quotedText pieces).length ≤ (strip (quotedText pieces ++ behind)).length := by
    by_contra short
    have stripPrefix : strip (quotedText pieces ++ behind) <+: quotedText pieces ++ behind :=
      ⟨after, whole.symm⟩
    obtain ⟨between, isStrip⟩ := List.prefix_of_prefix_length_le stripPrefix
      (List.prefix_append (quotedText pieces) behind) (Nat.le_of_lt (Nat.not_le.mp short))
    have filled : between ≠ [] := by
      intro none
      rw [none, List.append_nil] at isStrip
      exact short (Nat.le_of_eq (congrArg List.length isStrip.symm))
    have rest : between ++ behind = after := by
      have both : strip (quotedText pieces ++ behind) ++ (between ++ behind) =
          strip (quotedText pieces ++ behind) ++ after := by
        rw [← List.append_assoc, isStrip]
        exact whole
      exact List.append_cancel_left both
    have closing : '"' ∈ after := by
      have isLast : (quotedText pieces).getLast? = some '"' := by
        rw [quotedText, ← List.cons_append, List.getLast?_append]
        rfl
      rw [← isStrip, List.getLast?_append_of_ne_nil _ filled] at isLast
      rw [← rest]
      exact List.mem_append_left _ (List.mem_of_getLast? isLast)
    exact absurd (blankAfter '"' closing) (by decide)
  have pieceLength : pieces.length ≤ (pieces.flatMap NamePiece.text).length := by
    clear found spells whole long
    induction pieces with
    | nil => exact Nat.le_refl _
    | cons piece pieces ih =>
        have filled : piece.text ≠ [] := by
          cases piece with
          | raw c plain => exact List.cons_ne_nil _ _
          | escape c letter known => exact List.cons_ne_nil _ _
          | octal c =>
              intro none
              rw [NamePiece.text, List.flatMap_eq_nil_iff] at none
              obtain ⟨byte, member⟩ := List.exists_mem_of_ne_nil _ String.utf8EncodeChar_ne_nil
              cases none byte member
        have one := List.length_pos_of_ne_nil filled
        rw [List.flatMap_cons, List.length_append, List.length_cons]
        omega
  obtain ⟨first, rest, isName, _, _, isPath⟩ := behindRoot_eq_some found
  have nameLength := congrArg List.length isName
  rw [List.length_map, List.length_append, List.length_cons] at nameLength
  have shorter := length_squashFrom_le false rest
  rw [← squashSlash, ← isPath] at shorter
  have quotedLength : (quotedText pieces).length = (pieces.flatMap NamePiece.text).length + 2 := by
    rw [quotedText, List.length_cons, List.length_append]
    rfl
  have unrooted : unroot (strip (quotedText pieces ++ behind)) =
      strip (quotedText pieces ++ behind) := by
    refine if_neg fun rooted => ?_
    obtain ⟨letter, others, same, isLetter⟩ := (rooted_iff _).mp rooted
    rw [same] at whole
    have quote := (List.cons.inj whole).1
    rcases isLetter with rfl | rfl <;> cases quote
  have length := congrArg List.length spells.2
  rw [unrooted, strip_strip, unrooted] at length
  omega

theorem FileName.spells_iff
    {file : FileName}
    {path : List Char}
    (found : file.path = some path) :
    Spells file.text path ↔ NamesPlainly file.text path := by
  refine ⟨fun spells => ?_, NamesPlainly.spells⟩
  cases file with
  | plain name noTab behind stops =>
      obtain ⟨first, rest, isName, noSlash, filled, isPath⟩ := behindRoot_eq_some found
      have noStop : ∀ c ∈ rest, c ≠ '\t' ∧ c ≠ '\r' := by
        intro c member
        have inName : c ∈ name.text := by
          rw [isName]
          exact List.mem_append_right _ (List.mem_cons_of_mem _ member)
        exact ⟨fun same => noTab (same ▸ inName), (name.oneLine c inName).2⟩
      change Spells (name.text ++ behind.text) path at spells
      change NamesPlainly (name.text ++ behind.text) path
      rw [isName, isPath] at spells ⊢
      exact namesPlainly_of_spells noSlash filled noStop stops spells
  | quoted pieces behind =>
      exact absurd spells (not_spells_quoted found)

end MrAgent
