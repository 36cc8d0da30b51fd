import Mathlib

/-!
# Commit graphs and branch heads

Commits form an acyclic graph through their parents. A branch is its head; its
history is all that the head descends from. A server that accepts only
fast-forwards moves a head to a descendant of it, so a history only grows.
-/

/-- Commits with their parents; a parent is older than its child. -/
structure CommitGraph (Commit : Type) where
  parents : Commit → List Commit
  rank : Commit → Nat
  rank_lt : ∀ {commit parent}, parent ∈ parents commit → rank parent < rank commit

namespace CommitGraph

variable {Commit : Type} (graph : CommitGraph Commit)

/-- The first commit is the second one or an ancestor of it. -/
def Ancestor : Commit → Commit → Prop :=
  Relation.ReflTransGen fun parent commit => parent ∈ graph.parents commit

/-- The commit is in the history of a branch; a missing branch has no history. -/
def Contains (head : Option Commit) (commit : Commit) : Prop :=
  ∃ tip, head = some tip ∧ graph.Ancestor commit tip

/-- Moving the head to the commit drops nothing. -/
def FastForward (head : Option Commit) (commit : Commit) : Prop :=
  ∀ tip, head = some tip → graph.Ancestor tip commit

/-- The second head has the history of the first. -/
def Extends (before after : Option Commit) : Prop :=
  ∀ commit, graph.Contains before commit → graph.Contains after commit

variable {graph}

theorem Ancestor.rank_le
    {older newer : Commit}
    (ancestor : graph.Ancestor older newer) :
    graph.rank older ≤ graph.rank newer := by
  induction ancestor with
  | refl =>
      exact Nat.le_refl _
  | tail _ parent ih =>
      exact Nat.le_trans ih (Nat.le_of_lt (graph.rank_lt parent))

theorem Ancestor.of_single
    {older commit parent : Commit}
    (single : graph.parents commit = [parent])
    (ancestor : graph.Ancestor older commit) :
    older = commit ∨ graph.Ancestor older parent := by
  cases ancestor with
  | refl =>
      exact Or.inl rfl
  | tail earlier last =>
      rw [single, List.mem_singleton] at last
      subst last
      exact Or.inr earlier

variable {commit parent : Commit}

theorem not_ancestor_parent
    (single : graph.parents commit = [parent]) :
    ¬graph.Ancestor commit parent := by
  intro ancestor
  have younger : graph.rank parent < graph.rank commit :=
    graph.rank_lt (by rw [single]; exact List.mem_singleton_self parent)
  exact absurd ancestor.rank_le (Nat.not_le.mpr younger)

theorem Ancestor.antisymm
    {first second : Commit}
    (left : graph.Ancestor first second)
    (right : graph.Ancestor second first) :
    first = second := by
  cases left with
  | refl =>
      rfl
  | tail earlier parent =>
      have older : graph.rank _ < graph.rank second := graph.rank_lt parent
      have back := right.rank_le
      have forth := Ancestor.rank_le earlier
      omega

theorem contains_head (commit : Commit) : graph.Contains (some commit) commit :=
  ⟨commit, rfl, Relation.ReflTransGen.refl⟩

namespace Extends

theorem refl (head : Option Commit) : graph.Extends head head :=
  fun _ contained => contained

theorem trans
    {first second third : Option Commit}
    (left : graph.Extends first second)
    (right : graph.Extends second third) :
    graph.Extends first third :=
  fun commit contained => right commit (left commit contained)

end Extends

variable {head : Option Commit}

theorem FastForward.extends
    {commit : Commit}
    (forward : graph.FastForward head commit) :
    graph.Extends head (some commit) := by
  rintro older ⟨tip, rfl, ancestor⟩
  exact ⟨commit, rfl, ancestor.trans (forward tip rfl)⟩

theorem FastForward.head_eq
    {commit : Commit}
    (forward : graph.FastForward head commit)
    (contained : graph.Contains head commit) :
    head = some commit := by
  obtain ⟨tip, rfl, ancestor⟩ := contained
  rw [ancestor.antisymm (forward tip rfl)]

theorem FastForward.contains_child
    (forward : graph.FastForward head commit)
    (single : graph.parents commit = [parent])
    (based : graph.Contains head parent)
    {other : Commit}
    (contained : graph.Contains (some commit) other) :
    other = commit ∨ graph.Contains head other := by
  obtain ⟨tip, same, ancestor⟩ := contained
  cases same
  rcases ancestor.of_single single with equal | earlier
  · exact Or.inl equal
  · obtain ⟨tip, rfl, below⟩ := based
    exact Or.inr ⟨tip, rfl, earlier.trans below⟩

theorem FastForward.sibling_eq
    {commit sibling parent : Commit}
    (forward : graph.FastForward head commit)
    (single : graph.parents commit = [parent])
    (siblingSingle : graph.parents sibling = [parent])
    (contained : graph.Contains head sibling) :
    sibling = commit := by
  obtain ⟨tip, rfl, ancestor⟩ := contained
  have below : graph.Ancestor sibling commit := ancestor.trans (forward tip rfl)
  rcases below.of_single single with equal | below
  · exact equal
  · exact absurd below (not_ancestor_parent siblingSingle)

end CommitGraph
