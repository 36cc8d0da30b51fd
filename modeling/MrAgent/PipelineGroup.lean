import Mathlib
import MrAgent.ForestPaths

namespace MrAgent

/-!
# Pipeline groups

`resolve_pipeline_group` collects the pipelines that belong to one validation:
those below the given pipeline, and those below other pipelines of the same
commit that lead to it. From the validation pipeline it then climbs along the
recorded parents.
-/

/-- A pipeline, as far as it is read. -/
structure GroupedPipeline where
  id : Nat
  sha : String
  createdAt : Option Int := none
  status : String := ""
  downstream : List Nat := []
  jobNames : List String := []
deriving DecidableEq

/-- The pipelines of a project, and the first page of those with a commit. -/
structure PipelineProject where
  pipelines : List GroupedPipeline
  distinct : (pipelines.map (·.id)).Nodup
  listed : String → List Nat
  lower : String → String

/-- What is resolved: a pipeline of the project, and the bounds of its group. -/
structure GroupRequest where
  project : PipelineProject
  anchor : Nat
  known : anchor ∈ project.pipelines.map (·.id)
  requiredJobPatterns : List String := []
  exactSha : String := ""
  notBefore : Option Int := none

/-- `SAME_SHA_PARENT_LOOKBACK`, in seconds. -/
def sameShaParentLookback : Int :=
  3600

/-- The pipelines that have been visited and the parents that have been recorded. -/
structure CausalGraph where
  pipelines : List Nat := []
  parents : Nat → Option Nat := fun _ => none
  merged : Bool := false

namespace PipelineProject

variable (project : PipelineProject)

/-- `project.pipelines.get` -/
def get (id : Nat) : Option GroupedPipeline :=
  project.pipelines.find? (·.id = id)

/-- `_downstream_ids` -/
def downstreamIds (id : Nat) : List Nat :=
  ((project.get id).map (·.downstream)).getD [] |>.filter (· ≠ 0)

/-- `_eligible` -/
def eligible (sha : String) (notBefore : Option Int) (id : Nat) : Bool :=
  match project.get id with
  | none => false
  | some pipeline =>
    (sha = "" || pipeline.sha = sha) &&
      match notBefore, pipeline.createdAt with
      | some bound, some createdAt => bound ≤ createdAt
      | _, _ => true

/-- `_walk`, with the levels that are left. -/
def walk : Nat → Nat → CausalGraph → CausalGraph
  | 0, _, graph => graph
  | levels + 1, id, graph =>
    if id ∈ graph.pipelines then graph
    else
      (project.downstreamIds id).foldl
        (fun graph child =>
          if (project.get child).isSome then
            walk levels child
              { graph with parents := fun other =>
                  if other = child then some id else graph.parents other }
          else graph)
        { graph with pipelines := graph.pipelines ++ [id] }

end PipelineProject

namespace GroupRequest

variable (request : GroupRequest)

/-- `exact_sha or _pipeline_sha(pipeline)` -/
def sha : String :=
  if request.exactSha ≠ "" then request.exactSha
  else ((request.project.get request.anchor).map (·.sha)).getD ""

/-- `fallback_not_before` -/
def fallbackNotBefore : Option Int :=
  request.notBefore <|> ((request.project.get request.anchor).bind (·.createdAt)).map
    (· - sameShaParentLookback)

/-- `_same_sha_candidates` -/
def sameShaCandidates : List Nat :=
  (request.project.listed request.sha).filter fun id => (request.project.get id).isSome

/-- A candidate is merged when its pipelines lead to the given one. -/
def addCandidate (graph : CausalGraph) (candidate : Nat) : CausalGraph :=
  if candidate ∈ graph.pipelines ∨
      request.project.eligible request.sha request.fallbackNotBefore candidate = false then graph
  else
    let found := request.project.walk 6 candidate {}
    let kept := found.pipelines.filter
      (request.project.eligible request.sha request.fallbackNotBefore)
    if request.anchor ∉ kept then graph
    else
      { merged := true
        pipelines := graph.pipelines ++ kept.filter (· ∉ graph.pipelines)
        parents := fun child =>
          match found.parents child with
          | some parent =>
            if child ∈ kept ∧ parent ∈ kept then some parent else graph.parents child
          | none => graph.parents child }

/-- `_resolve_causal_graph` -/
def causalGraph : CausalGraph :=
  request.sameShaCandidates.foldl request.addCandidate
    (request.project.walk 6 request.anchor {})

/-- The pipelines of the group; the given one when none is eligible. -/
def pipelines : List Nat :=
  match request.causalGraph.pipelines.filter
      (request.project.eligible request.sha request.notBefore) with
  | [] => [request.anchor]
  | kept => kept

/-- How many patterns occur in the names of the jobs. -/
def score (id : Nat) : Nat :=
  let names := (((request.project.get id).map (·.jobNames)).getD []).map request.project.lower
  let patterns := (request.requiredJobPatterns.filter (· ≠ "")).map request.project.lower
  patterns.countP fun pattern => names.any fun name => pattern.toList <:+: name.toList

end GroupRequest

end MrAgent
