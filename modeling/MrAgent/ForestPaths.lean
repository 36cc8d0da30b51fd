import Mathlib

namespace ForestPaths

/-!
# Forests

Paths of a relation without cycles in which every node has at most one parent,
and the ascent along recorded parents.
-/

variable {Node : Type*}

/-- No node lies below itself. -/
def Acyclic (edge : Node → Node → Prop) : Prop :=
  ∀ node, ¬ Relation.TransGen edge node node

/-- A node has at most one parent. -/
def SingleParent (edge : Node → Node → Prop) : Prop :=
  ∀ parent other child, edge parent child → edge other child → parent = other

/-- A node lies below another one, or is it. -/
def Below (edge : Node → Node → Prop) (upper lower : Node) : Prop :=
  Relation.ReflTransGen edge upper lower

/-- A node is reached within so many levels, the first of which is the start itself. -/
def Within (edge : Node → Node → Prop) : Nat → Node → Node → Prop
  | 0, _, _ => False
  | levels + 1, upper, lower =>
    upper = lower ∨ ∃ child, edge upper child ∧ Within edge levels child lower

/-- A node without a parent above another node. -/
def RootOf (edge : Node → Node → Prop) (root node : Node) : Prop :=
  Below edge root node ∧ ∀ parent, ¬ edge parent root

variable {edge : Node → Node → Prop}

theorem Within.below
    {levels : Nat}
    {upper lower : Node}
    (within : Within edge levels upper lower) :
    Below edge upper lower := by
  induction levels generalizing upper with
  | zero => exact absurd within id
  | succ levels ih =>
      rcases within with rfl | ⟨child, isEdge, rest⟩
      · exact Relation.ReflTransGen.refl
      · exact Relation.ReflTransGen.head isEdge (ih rest)

theorem below_or_below
    (single : SingleParent edge)
    {upper other lower : Node}
    (first : Below edge upper lower)
    (second : Below edge other lower) :
    Below edge upper other ∨ Below edge other upper := by
  induction first with
  | refl => exact Or.inr second
  | tail path isEdge ih =>
      rename_i middle last
      rcases Relation.ReflTransGen.cases_tail second with same | ⟨before, above, otherEdge⟩
      · rw [← same]
        exact Or.inl (Relation.ReflTransGen.tail path isEdge)
      · rw [single before middle last otherEdge isEdge] at above
        exact ih above

theorem children_apart
    (acyclic : Acyclic edge)
    (single : SingleParent edge)
    {parent child other lower : Node}
    (isChild : edge parent child)
    (isOther : edge parent other)
    (first : Below edge child lower)
    (second : Below edge other lower) :
    child = other := by
  have apart : ∀ upper below, edge parent upper → edge parent below → Below edge upper below →
      upper = below := by
    intro upper below isUpper isBelow path
    rcases Relation.ReflTransGen.cases_tail path with same | ⟨before, above, last⟩
    · exact same.symm
    · rw [single before parent below last isBelow] at above
      exact absurd (Relation.TransGen.head' isUpper above) (acyclic parent)
  rcases below_or_below single first second with path | path
  · exact apart child other isChild isOther path
  · exact (apart other child isOther isChild path).symm

variable {root node upper : Node}

theorem RootOf.eq_of_below
    (isRoot : RootOf edge root node)
    (above : Below edge upper root) :
    upper = root := by
  rcases Relation.ReflTransGen.cases_tail above with same | ⟨before, _, last⟩
  · exact same.symm
  · exact absurd last (isRoot.2 before)

theorem RootOf.above
    (single : SingleParent edge)
    (isRoot : RootOf edge root node)
    (above : Below edge upper node) :
    Below edge root upper := by
  rcases below_or_below single isRoot.1 above with path | path
  · exact path
  · rw [isRoot.eq_of_below path]
    exact Relation.ReflTransGen.refl

/-! ## Ascent -/

variable {parent : Node → Option Node}

variable {fuel : Nat} {nodes : List Node}

end ForestPaths
