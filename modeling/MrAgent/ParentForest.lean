import Mathlib
import MrAgent.GroupedList

namespace ParentForest

/-!
# Disjoint sets as a forest of parent links

An element without a parent of its own is the root of its set. `find` halves the
path to the root while it climbs, and `union` hangs one root under another.
Heights bound the number of steps of a search.
-/

variable {α : Type}

/-- The search for a root with path halving: the links behind it and the root. -/
def find [DecidableEq α] : Nat → (α → α) → α → (α → α) × α
  | 0, parent, element => (parent, element)
  | fuel + 1, parent, element =>
    if parent element = element then (parent, element)
    else find fuel (Function.update parent element (parent (parent element)))
      (parent (parent element))

/-- The root of the first element is hung under the root of the second. -/
def union [DecidableEq α] (fuel : Nat) (parent : α → α) (first second : α) : α → α :=
  let target := find fuel parent second
  let source := find fuel target.1 first
  Function.update source.1 source.2 target.2

/-! ## Forests -/

/-- Links that climb. -/
structure Forest (parent : α → α) (height : α → Nat) (top : Nat) : Prop where
  climbs : ∀ element, parent element ≠ element → height element < height (parent element)
  bounded : ∀ element, height element ≤ top

/-- The links lead from an element to a root. -/
inductive Leads (parent : α → α) : α → α → Prop where
  | root {element : α} (fixed : parent element = element) : Leads parent element element
  | climb {element root : α} (link : parent element ≠ element)
      (further : Leads parent (parent element) root) : Leads parent element root

/-- Two elements have one root. -/
def Joined (parent : α → α) (first second : α) : Prop :=
  ∃ root, Leads parent first root ∧ Leads parent second root

section Leads

variable {parent : α → α} {height : α → Nat} {top : Nat} {element root other : α}

theorem Leads.fixed (leads : Leads parent element root) : parent root = root := by
  induction leads with
  | root fixed => exact fixed
  | climb _ _ ih => exact ih

theorem Leads.of_fixed (leads : Leads parent element root) (fixed : parent element = element) :
    root = element := by
  cases leads with
  | root => rfl
  | climb link => exact absurd fixed link

theorem Leads.next (leads : Leads parent element root) :
    Leads parent (parent element) root := by
  cases leads with
  | root fixed =>
      rw [fixed]
      exact Leads.root fixed
  | climb _ further =>
      exact further

theorem Leads.unique (leads : Leads parent element root) (again : Leads parent element other) :
    root = other := by
  induction leads with
  | root fixed =>
      exact (again.of_fixed fixed).symm
  | climb _ _ ih =>
      exact ih again.next

theorem Forest.exists_leads (forest : Forest parent height top) (element : α) :
    ∃ root, Leads parent element root := by
  by_cases fixed : parent element = element
  · exact ⟨element, Leads.root fixed⟩
  · have climbs := forest.climbs element fixed
    have bounded := forest.bounded (parent element)
    obtain ⟨root, leads⟩ := forest.exists_leads (parent element)
    exact ⟨root, Leads.climb fixed leads⟩
termination_by top - height element

end Leads

theorem Leads.joined_iff
    {parent : α → α}
    {first second root other : α}
    (leads : Leads parent first root)
    (further : Leads parent second other) :
    Joined parent first second ↔ root = other := by
  constructor
  · rintro ⟨shared, ofFirst, ofSecond⟩
    rw [leads.unique ofFirst, further.unique ofSecond]
  · rintro rfl
    exact ⟨root, leads, further⟩

theorem Forest.joined_equivalence
    {parent : α → α}
    {height : α → Nat}
    {top : Nat}
    (forest : Forest parent height top) :
    Equivalence (Joined parent) where
  refl element := by
    obtain ⟨root, leads⟩ := forest.exists_leads element
    exact ⟨root, leads, leads⟩
  symm joined := by
    obtain ⟨root, first, second⟩ := joined
    exact ⟨root, second, first⟩
  trans joined further := by
    obtain ⟨root, first, second⟩ := joined
    obtain ⟨other, again, third⟩ := further
    rw [second.unique again] at first
    exact ⟨other, first, third⟩

/-! ## Searching -/

section Find

variable [DecidableEq α] {parent : α → α} {height : α → Nat} {top : Nat}
  {element root : α}

theorem Forest.halve
    (forest : Forest parent height top)
    (link : parent element ≠ element) :
    Forest (Function.update parent element (parent (parent element))) height top where
  bounded := forest.bounded
  climbs := by
    intro other
    by_cases same : other = element
    · subst same
      intro _
      rw [Function.update_self]
      have climbs := forest.climbs other link
      by_cases fixed : parent (parent other) = parent other
      · rw [fixed]
        exact climbs
      · exact Nat.lt_trans climbs (forest.climbs _ fixed)
    · rw [Function.update_of_ne same]
      exact forest.climbs other

theorem Leads.halve
    (forest : Forest parent height top)
    (link : parent element ≠ element)
    {other : α}
    (leads : Leads parent other root) :
    Leads (Function.update parent element (parent (parent element))) other root := by
  induction leads with
  | @root other fixed =>
      have apart : other ≠ element := fun same => link (same ▸ fixed)
      exact Leads.root (by rw [Function.update_of_ne apart]; exact fixed)
  | @climb other root otherLink further ih =>
      by_cases same : other = element
      · subst same
        -- The halved link skips one element, whose root is known already.
        have above : parent (parent other) ≠ other := by
          intro loop
          have first := forest.climbs other otherLink
          have second := forest.climbs (parent other) (by rw [loop]; exact otherLink.symm)
          rw [loop] at second
          omega
        refine Leads.climb (by rw [Function.update_self]; exact above) ?_
        rw [Function.update_self]
        have skipped := ih.next
        rwa [Function.update_of_ne otherLink] at skipped
      · refine Leads.climb (by rw [Function.update_of_ne same]; exact otherLink) ?_
        rw [Function.update_of_ne same]
        exact ih

theorem find_spec
    (fuel : Nat)
    (forest : Forest parent height top)
    (enough : top < fuel + height element) :
    Forest (find fuel parent element).1 height top ∧
      Leads parent element (find fuel parent element).2 ∧
      ∀ other root, Leads parent other root → Leads (find fuel parent element).1 other root := by
  induction fuel generalizing parent element with
  | zero =>
      have bounded := forest.bounded element
      omega
  | succ fuel ih =>
      rw [find]
      by_cases fixed : parent element = element
      · rw [if_pos fixed]
        exact ⟨forest, Leads.root fixed, fun _ _ leads => leads⟩
      · rw [if_neg fixed]
        have halved := forest.halve fixed
        have climbs := forest.climbs element fixed
        have higher : height element < height (parent (parent element)) := by
          by_cases above : parent (parent element) = parent element
          · rw [above]
            exact climbs
          · exact Nat.lt_trans climbs (forest.climbs _ above)
        have left : top < fuel + height (parent (parent element)) := by
          omega
        obtain ⟨kept, found, roots⟩ := ih halved left
        obtain ⟨root, leads⟩ := forest.exists_leads element
        have further := (leads.halve forest fixed).next
        rw [Function.update_self] at further
        refine ⟨kept, ?_, fun other root leads => roots other root (leads.halve forest fixed)⟩
        rw [found.unique further]
        exact leads

end Find

/-! ## Joining -/

section Union

variable [DecidableEq α] {parent : α → α} {height : α → Nat} {top : Nat}

variable {source target : α}

theorem Forest.link
    (forest : Forest parent height top)
    (sourceRoot : parent source = source)
    (targetRoot : parent target = target) :
    Forest (Function.update parent source target)
      (Function.update height target (max (height target) (height source + 1))) (top + 1) where
  bounded := by
    intro element
    by_cases same : element = target
    · subst same
      rw [Function.update_self]
      have first := forest.bounded element
      have second := forest.bounded source
      omega
    · rw [Function.update_of_ne same]
      exact Nat.le_succ_of_le (forest.bounded element)
  climbs := by
    intro element
    by_cases moved : element = source
    · subst moved
      rw [Function.update_self]
      intro link
      rw [Function.update_self, Function.update_of_ne link.symm]
      omega
    · rw [Function.update_of_ne moved]
      intro link
      have climbs := forest.climbs element link
      have apart : element ≠ target := fun same => link (same ▸ targetRoot)
      rw [Function.update_of_ne apart]
      by_cases above : parent element = target
      · rw [above, Function.update_self]
        rw [above] at climbs
        omega
      · rw [Function.update_of_ne above]
        exact climbs

theorem Leads.link
    (sourceRoot : parent source = source)
    (targetRoot : parent target = target)
    {element root : α}
    (leads : Leads parent element root) :
    Leads (Function.update parent source target) element
      (if root = source then target else root) := by
  induction leads with
  | @root element fixed =>
      by_cases moved : element = source
      · subst moved
        rw [if_pos rfl]
        by_cases same : target = element
        · subst same
          exact Leads.root (Function.update_self target target parent)
        · refine Leads.climb (by rw [Function.update_self]; exact same) ?_
          rw [Function.update_self]
          exact Leads.root (by rw [Function.update_of_ne same]; exact targetRoot)
      · rw [if_neg moved]
        exact Leads.root (by rw [Function.update_of_ne moved]; exact fixed)
  | @climb element root link further ih =>
      have apart : element ≠ source := fun same => link (same ▸ sourceRoot)
      refine Leads.climb (by rw [Function.update_of_ne apart]; exact link) ?_
      rw [Function.update_of_ne apart]
      exact ih

variable {fuel : Nat}

theorem union_spec
    (forest : Forest parent height top)
    (enough : top < fuel)
    (first second : α) :
    (∃ higher, Forest (union fuel parent first second) higher (top + 1)) ∧
      ∀ element other, Joined (union fuel parent first second) element other ↔
        Joined parent element other ∨
          (Joined parent element first ∧ Joined parent second other) ∨
          (Joined parent element second ∧ Joined parent first other) := by
  obtain ⟨kept, ofSecond, roots⟩ := find_spec fuel forest (Nat.lt_add_right (height second) enough)
  obtain ⟨keptAgain, found, rootsAgain⟩ :=
    find_spec fuel kept (Nat.lt_add_right (height first) enough)
  have all : ∀ element root, Leads parent element root →
      Leads (find fuel (find fuel parent second).1 first).1 element root :=
    fun element root leads => rootsAgain element root (roots element root leads)
  have ofFirst : Leads parent first (find fuel (find fuel parent second).1 first).2 := by
    obtain ⟨root, leads⟩ := forest.exists_leads first
    rw [found.unique (roots first root leads)]
    exact leads
  have sourceRoot := (all first _ ofFirst).fixed
  have targetRoot := (all second _ ofSecond).fixed
  refine ⟨⟨_, keptAgain.link sourceRoot targetRoot⟩, fun element other => ?_⟩
  obtain ⟨root, leads⟩ := forest.exists_leads element
  obtain ⟨otherRoot, otherLeads⟩ := forest.exists_leads other
  have linked := (all element root leads).link sourceRoot targetRoot
  have otherLinked := (all other otherRoot otherLeads).link sourceRoot targetRoot
  rw [union, linked.joined_iff otherLinked, leads.joined_iff otherLeads,
    leads.joined_iff ofFirst, ofSecond.joined_iff otherLeads, leads.joined_iff ofSecond,
    ofFirst.joined_iff otherLeads]
  grind

/-- The unions of some pairs, one after another. -/
def unite (fuel : Nat) (parent : α → α) (pairs : List (α × α)) : α → α :=
  pairs.foldl (fun links pair => union fuel links pair.1 pair.2) parent

theorem unite_spec
    (pairs : List (α × α))
    (enough : pairs.length ≤ fuel) :
    (∃ height, Forest (unite fuel id pairs) height pairs.length) ∧
      ∀ element other, Joined (unite fuel id pairs) element other ↔
        Relation.EqvGen (fun first second => (first, second) ∈ pairs) element other := by
  induction pairs using List.reverseRecOn with
  | nil =>
      have forest : Forest (unite fuel id ([] : List (α × α))) (fun _ => 0) 0 :=
        ⟨fun _ link => absurd rfl link, fun _ => Nat.le_refl 0⟩
      refine ⟨⟨_, forest⟩, fun element other => ⟨?_, ?_⟩⟩
      · rintro ⟨root, first, second⟩
        have same : element = other := (first.of_fixed rfl).symm.trans (second.of_fixed rfl)
        rw [same]
        exact Relation.EqvGen.refl other
      · intro chain
        refine forest.joined_equivalence.eqvGen_iff.mp (Relation.EqvGen.mono ?_ _ _ chain)
        intro first second member
        exact absurd member List.not_mem_nil
  | append_singleton pairs pair ih =>
      rw [List.length_append, List.length_singleton] at enough
      obtain ⟨⟨height, forest⟩, joined⟩ := ih (Nat.le_of_succ_le enough)
      obtain ⟨higher, merged⟩ := union_spec forest enough pair.1 pair.2
      have last : unite fuel id (pairs ++ [pair]) =
          union fuel (unite fuel id pairs) pair.1 pair.2 := by
        simp [unite]
      rw [last, List.length_append, List.length_singleton]
      refine ⟨higher, fun element other => ⟨?_, ?_⟩⟩
      · have earlier : ∀ first second, Joined (unite fuel id pairs) first second →
            Relation.EqvGen (fun one two => (one, two) ∈ pairs ++ [pair]) first second := by
          intro first second shared
          refine Relation.EqvGen.mono ?_ _ _ ((joined first second).mp shared)
          intro one two member
          exact List.mem_append_left _ member
        have edge : Relation.EqvGen (fun one two => (one, two) ∈ pairs ++ [pair])
            pair.1 pair.2 :=
          Relation.EqvGen.rel _ _ (by simp)
        intro shared
        rcases (merged element other).mp shared with same | ⟨left, right⟩ | ⟨left, right⟩
        · exact earlier _ _ same
        · exact ((earlier _ _ left).trans _ _ _ edge).trans _ _ _ (earlier _ _ right)
        · exact ((earlier _ _ left).trans _ _ _ (edge.symm _ _)).trans _ _ _ (earlier _ _ right)
      · intro chain
        obtain ⟨taller, behind⟩ := higher
        have before := forest.joined_equivalence
        refine behind.joined_equivalence.eqvGen_iff.mp (Relation.EqvGen.mono ?_ _ _ chain)
        intro first second member
        rcases List.mem_append.mp member with inPairs | isLast
        · exact (merged first second).mpr
            (Or.inl ((joined first second).mpr (Relation.EqvGen.rel _ _ inPairs)))
        · rw [List.mem_singleton] at isLast
          subst isLast
          exact (merged first second).mpr (Or.inr (Or.inl ⟨before.refl first, before.refl second⟩))

/-! ## Collecting the sets -/

/-- The elements by their roots; every search halves its path. -/
def collect (fuel : Nat) : (α → α) → List α → List (α × List α) → List (α × List α)
  | _, [], groups => groups
  | parent, element :: rest, groups =>
    let found := find fuel parent element
    collect fuel found.1 rest (GroupedList.insertGroup found.2 element groups)

theorem collect_eq
    (forest : Forest parent height top)
    (enough : top < fuel)
    (elements : List α)
    (groups : List (α × List α)) :
    collect fuel parent elements groups =
      elements.foldl (fun groups element =>
        GroupedList.insertGroup (find fuel parent element).2 element groups) groups := by
  have agree : ∀ links, Forest links height top →
      (∀ element root, Leads parent element root → Leads links element root) →
      ∀ groups, collect fuel links elements groups =
        elements.foldl (fun groups element =>
          GroupedList.insertGroup (find fuel parent element).2 element groups) groups := by
    induction elements with
    | nil =>
        intro links _ _ groups
        rfl
    | cons element rest ih =>
        intro links kept roots groups
        obtain ⟨-, found, -⟩ := find_spec fuel forest (Nat.lt_add_right (height element) enough)
        obtain ⟨next, foundNow, rootsNow⟩ :=
          find_spec fuel kept (Nat.lt_add_right (height element) enough)
        have same : (find fuel links element).2 = (find fuel parent element).2 :=
          foundNow.unique (roots element _ found)
        rw [collect, List.foldl_cons, same]
        exact ih _ next
          (fun other root leads => rootsNow other root (roots other root leads)) _
  exact agree parent forest (fun _ _ leads => leads) groups

theorem grouped_collect
    (forest : Forest parent height top)
    (enough : top < fuel)
    (elements : List α) :
    GroupedList.Grouped (fun element => (find fuel parent element).2) elements
      (collect fuel parent elements []) := by
  rw [collect_eq forest enough]
  exact GroupedList.grouped_groupOn _ elements

theorem find_eq_iff
    (forest : Forest parent height top)
    (enough : top < fuel)
    (first second : α) :
    (find fuel parent first).2 = (find fuel parent second).2 ↔ Joined parent first second := by
  obtain ⟨-, ofFirst, -⟩ := find_spec fuel forest (Nat.lt_add_right (height first) enough)
  obtain ⟨-, ofSecond, -⟩ := find_spec fuel forest (Nat.lt_add_right (height second) enough)
  exact (ofFirst.joined_iff ofSecond).symm

end Union

end ParentForest
