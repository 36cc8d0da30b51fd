import MrAgent.PipelineReach

namespace MrAgent

/-!
# The forest above a pipeline

Merging a candidate keeps every recorded parent a parent, so the climb ends
wherever no pipeline is below itself. Where every pipeline has at most one parent
the group lies below the root ancestor, and a root that is listed with its commit
brings in everything that is near enough and eligible.
-/

open ForestPaths

namespace PipelineProject

variable {project : PipelineProject}

end PipelineProject

namespace GroupRequest

variable {request : GroupRequest}

/-- A candidate that has not been visited leads to the given pipeline. -/
def Joins (request : GroupRequest) (graph : CausalGraph) (candidate : Nat) : Prop :=
  candidate ∉ graph.pipelines ∧
    request.project.eligible request.sha request.fallbackNotBefore candidate = true ∧
    Within request.project.Triggers 6 candidate request.anchor ∧
    request.project.eligible request.sha request.fallbackNotBefore request.anchor = true

section Forest

variable (acyclic : Acyclic request.project.Triggers)
  (single : SingleParent request.project.Triggers)

include acyclic single

theorem mem_walk_empty
    (id other : Nat) :
    other ∈ (request.project.walk 6 id {}).pipelines ↔
      Within request.project.Triggers 6 id other := by
  rw [PipelineProject.mem_walk acyclic single 6 id fun _ _ => List.not_mem_nil]
  exact or_iff_right List.not_mem_nil

theorem mem_addCandidate
    (graph : CausalGraph)
    (candidate other : Nat) :
    other ∈ (request.addCandidate graph candidate).pipelines ↔
      other ∈ graph.pipelines ∨ request.Joins graph candidate ∧
        Within request.project.Triggers 6 candidate other ∧
        request.project.eligible request.sha request.fallbackNotBefore other = true := by
  rw [addCandidate]
  split
  · rename_i skipped
    refine (or_iff_left fun joined => ?_).symm
    rcases skipped with visited | ineligible
    · exact joined.1.1 visited
    · rw [joined.1.2.1] at ineligible
      cases ineligible
  · rename_i considered
    push Not at considered
    obtain ⟨fresh, eligible⟩ := considered
    dsimp only
    split
    · rename_i apart
      rw [List.mem_filter, mem_walk_empty acyclic single] at apart
      exact (or_iff_left fun joined => apart joined.1.2.2).symm
    · rename_i leads
      rw [not_not, List.mem_filter, mem_walk_empty acyclic single] at leads
      simp only [List.mem_append, List.mem_filter, mem_walk_empty acyclic single, Joins]
      by_cases visited : other ∈ graph.pipelines
      · simp only [visited, true_or]
      · simp only [visited, false_or, not_false_iff, decide_true, and_true, fresh, leads,
          Bool.eq_true_of_not_eq_false eligible, true_and]

/-! ## The candidates -/

/-- What the merged candidates keep true of the graph. -/
structure Rooted (request : GroupRequest) (root : Nat) (graph : CausalGraph) : Prop where
  below : ∀ id ∈ graph.pipelines, Below request.project.Triggers root id
  near : ∀ id, Within request.project.Triggers 6 request.anchor id → id ∈ graph.pipelines
  whole : root ∈ graph.pipelines → ∀ id, Within request.project.Triggers 6 root id →
    request.project.eligible request.sha request.fallbackNotBefore id = true →
    id ∈ graph.pipelines

variable {root : Nat}

theorem Rooted.start
    (isRoot : RootOf request.project.Triggers root request.anchor) :
    request.Rooted root (request.project.walk 6 request.anchor {}) where
  below id member :=
    isRoot.1.trans ((mem_walk_empty acyclic single _ id).mp member).below
  near id within := (mem_walk_empty acyclic single _ id).mpr within
  whole member id within _ := by
    have above := ((mem_walk_empty acyclic single _ root).mp member).below
    rw [← isRoot.eq_of_below above] at within
    exact (mem_walk_empty acyclic single _ id).mpr within

variable {graph : CausalGraph}

theorem Rooted.addCandidate
    (isRoot : RootOf request.project.Triggers root request.anchor)
    (rooted : request.Rooted root graph)
    (candidate : Nat) :
    request.Rooted root (request.addCandidate graph candidate) where
  below id member := by
    rcases (mem_addCandidate acyclic single graph candidate id).mp member with old | joined
    · exact rooted.below id old
    · exact (isRoot.above single joined.1.2.2.1.below).trans joined.2.1.below
  near id within :=
    (mem_addCandidate acyclic single graph candidate id).mpr (Or.inl (rooted.near id within))
  whole member id within eligible := by
    refine (mem_addCandidate acyclic single graph candidate id).mpr ?_
    rcases (mem_addCandidate acyclic single graph candidate root).mp member with old | joined
    · exact Or.inl (rooted.whole old id within eligible)
    · -- Only the root itself leads to the root.
      rw [← isRoot.eq_of_below joined.2.1.below] at within
      exact Or.inr ⟨joined.1, within, eligible⟩

theorem Rooted.causalGraph
    (isRoot : RootOf request.project.Triggers root request.anchor) :
    request.Rooted root request.causalGraph := by
  have merged : ∀ candidates : List Nat, ∀ graph, request.Rooted root graph →
      request.Rooted root (candidates.foldl request.addCandidate graph) := by
    intro candidates
    induction candidates with
    | nil => exact fun _ rooted => rooted
    | cons candidate rest ih =>
        exact fun graph rooted =>
          ih _ (Rooted.addCandidate acyclic single isRoot rooted candidate)
  exact merged _ _ (Rooted.start acyclic single isRoot)

end Forest

end GroupRequest

end MrAgent
