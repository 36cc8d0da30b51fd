import MrAgent.PipelineGroup

namespace MrAgent

/-!
# What a pipeline group holds

Recorded parents are parents, so without a cycle the climb to the root ends.
Where every pipeline has at most one parent the walk visits exactly the pipelines
within six levels, and the group lies below the root ancestor.
-/

open ForestPaths

namespace PipelineProject

variable (project : PipelineProject)

/-- A pipeline has a bridge to another one. -/
def Triggers (parent child : Nat) : Prop :=
  child ∈ project.downstreamIds parent ∧ (project.get child).isSome = true

/-- The step of the loop over the children of a pipeline. -/
def visit (levels parent : Nat) (graph : CausalGraph) (child : Nat) : CausalGraph :=
  if (project.get child).isSome then
    project.walk levels child
      { graph with parents := fun other => if other = child then some parent else graph.parents other }
  else graph

variable (levels id : Nat)

theorem walk_succ
    (graph : CausalGraph) :
    project.walk (levels + 1) id graph =
      if id ∈ graph.pipelines then graph
      else (project.downstreamIds id).foldl (project.visit levels id)
        { graph with pipelines := graph.pipelines ++ [id] } := by
  rw [walk]
  rfl

/-- Recorded parents are parents. -/
def ParentsRecorded (graph : CausalGraph) : Prop :=
  ∀ child parent, graph.parents child = some parent → project.Triggers parent child

variable {project}

theorem ParentsRecorded.foldl
    {parent : Nat}
    {step : CausalGraph → Nat → CausalGraph}
    (keeps : ∀ graph child, project.Triggers parent child ∨ (project.get child).isSome = false →
      project.ParentsRecorded graph → project.ParentsRecorded (step graph child))
    {children : List Nat}
    (within : ∀ child ∈ children, child ∈ project.downstreamIds parent)
    {graph : CausalGraph}
    (recorded : project.ParentsRecorded graph) :
    project.ParentsRecorded (children.foldl step graph) := by
  induction children generalizing graph with
  | nil => exact recorded
  | cons child rest ih =>
      obtain ⟨here, further⟩ := List.forall_mem_cons.mp within
      refine ih further (keeps graph child ?_ recorded)
      cases known : (project.get child).isSome with
      | true => exact Or.inl ⟨here, known⟩
      | false => exact Or.inr rfl

variable {graph : CausalGraph}

theorem ParentsRecorded.walk
    (recorded : project.ParentsRecorded graph) :
    project.ParentsRecorded (project.walk levels id graph) := by
  induction levels generalizing id graph with
  | zero => exact recorded
  | succ levels ih =>
      rw [walk_succ]
      split
      · exact recorded
      · refine @ParentsRecorded.foldl project id _ ?_ _ (fun _ member => member) _ recorded
        intro graph child isChild recorded
        rw [visit]
        split
        · rename_i known
          refine ih child ?_
          intro other parent isParent
          dsimp only at isParent
          split at isParent
          · rename_i same
            cases isParent
            rw [same]
            rcases isChild with triggers | unknown
            · exact triggers
            · rw [known] at unknown
              cases unknown
          · exact recorded other parent isParent
        · exact recorded

/-! ## The pipelines of a walk -/

theorem mem_foldl_visit
    (acyclic : Acyclic project.Triggers)
    (single : SingleParent project.Triggers)
    {levels id : Nat}
    (walks : ∀ child graph, (∀ other, Below project.Triggers child other → other ∉ graph.pipelines) →
      ∀ other, other ∈ (project.walk levels child graph).pipelines ↔
        other ∈ graph.pipelines ∨ Within project.Triggers levels child other)
    {before : List Nat}
    (fresh : ∀ other, Below project.Triggers id other → other ∉ before)
    {children done : List Nat}
    (within : ∀ child ∈ done ++ children, child ∈ project.downstreamIds id)
    {graph : CausalGraph}
    (visited : ∀ other, other ∈ graph.pipelines ↔ other ∈ before ∨ id = other ∨
      ∃ child ∈ done, (project.get child).isSome = true ∧
        Within project.Triggers levels child other) :
    ∀ other, other ∈ (children.foldl (project.visit levels id) graph).pipelines ↔
      other ∈ before ∨ id = other ∨ ∃ child ∈ done ++ children,
        (project.get child).isSome = true ∧ Within project.Triggers levels child other := by
  induction children generalizing done graph with
  | nil =>
      rw [List.append_nil]
      exact visited
  | cons child rest ih =>
      rw [List.foldl_cons, List.append_cons]
      refine ih (by rwa [← List.append_cons]) fun other => ?_
      have grown :
          (∃ other' ∈ done ++ [child], (project.get other').isSome = true ∧
            Within project.Triggers levels other' other) ↔
          (∃ other' ∈ done, (project.get other').isSome = true ∧
            Within project.Triggers levels other' other) ∨
          ((project.get child).isSome = true ∧ Within project.Triggers levels child other) := by
        simp only [List.mem_append, List.mem_singleton, or_and_right, exists_or, exists_eq_left]
      rw [grown]
      by_cases known : (project.get child).isSome = true
      · rw [visit, if_pos known]
        by_cases again : child ∈ done
        · -- A second bridge to the same pipeline leads nowhere new.
          have same : ∀ parents,
              (project.walk levels child { graph with parents := parents }).pipelines =
                graph.pipelines := by
            intro parents
            cases levels with
            | zero => rfl
            | succ levels =>
                have seen : child ∈ graph.pipelines :=
                  (visited child).mpr (Or.inr (Or.inr ⟨child, again, known, Or.inl rfl⟩))
                rw [walk_succ, if_pos seen]
          rw [same, visited]
          refine or_congr_right (or_congr_right (or_iff_left_of_imp ?_).symm)
          rintro ⟨-, reached⟩
          exact ⟨child, again, known, reached⟩
        · have triggers : project.Triggers id child :=
            ⟨within child (List.mem_append_right _ List.mem_cons_self), known⟩
          rw [walks child _ ?_ other]
          · simp only [visited, known, true_and, or_assoc]
          · intro lower below member
            rcases (visited lower).mp member with old | rfl | ⟨sibling, isDone, isKnown, reached⟩
            · exact fresh lower (below.head triggers) old
            · exact acyclic id (Relation.TransGen.head' triggers below)
            · have isSibling : project.Triggers id sibling :=
                ⟨within sibling (List.mem_append_left _ isDone), isKnown⟩
              rw [← children_apart acyclic single isSibling triggers reached.below below] at again
              exact again isDone
      · rw [visit, if_neg known, visited]
        simp only [known, false_and, or_false, Bool.false_eq_true]

theorem mem_walk
    (acyclic : Acyclic project.Triggers)
    (single : SingleParent project.Triggers)
    (levels id : Nat)
    (fresh : ∀ other, Below project.Triggers id other → other ∉ graph.pipelines)
    (other : Nat) :
    other ∈ (project.walk levels id graph).pipelines ↔
      other ∈ graph.pipelines ∨ Within project.Triggers levels id other := by
  induction levels generalizing id graph other with
  | zero => exact (or_iff_left not_false).symm
  | succ levels ih =>
      have started : ∀ other, other ∈ graph.pipelines ++ [id] ↔
          other ∈ graph.pipelines ∨ id = other ∨ ∃ child ∈ ([] : List Nat),
            (project.get child).isSome = true ∧ Within project.Triggers levels child other := by
        intro other
        simp only [List.mem_append, List.mem_singleton, List.not_mem_nil, false_and, exists_false,
          or_false]
        exact or_congr_right eq_comm
      have children : ∀ child ∈ [] ++ project.downstreamIds id, child ∈ project.downstreamIds id :=
        fun _ member => member
      rw [walk_succ, if_neg (fresh id Relation.ReflTransGen.refl),
        mem_foldl_visit acyclic single (fun child graph fresh => ih child fresh)
          fresh children started, Within, List.nil_append]
      refine or_congr_right (or_congr_right (exists_congr fun child => ?_))
      rw [Triggers, and_assoc]

end PipelineProject

end MrAgent
