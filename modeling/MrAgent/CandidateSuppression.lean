import Mathlib
import MrAgent.BrokerModel

namespace MrAgent

/-!
# Suppressed candidates

`candidate_is_suppressed` looks at the stored candidates with a fingerprint and
at the runs they belong to. It decides at the first row that has something to
say; SQLite may return the rows in any order.
-/

/-- `EvolutionRunStatus`. -/
inductive EvolutionRunStatus where
  | created
  | aggregating
  | generating
  | validating
  | publishing
  | mrOpen
  | completedNoChange
  | dryRunValidated
  | optimizationRejected
  | insufficientValidation
  | superseded
  | failedRetryable
  | failedTerminal
  | merged
  | closed
deriving DecidableEq

/-- A row of `prompt_evolution_runs`, as far as the query reads it. -/
structure EvolutionRunRow where
  runId : String
  status : EvolutionRunStatus
  updatedAt : String
deriving DecidableEq

/-- A row of `prompt_evolution_candidates`, as far as the query reads it. -/
structure EvolutionCandidateRow where
  runId : String
  fingerprint : String
  sourcePromptHash : String
  negativeWeight : Option Rat
deriving DecidableEq

/-- A row of the query. -/
structure SuppressionRow where
  sourcePromptHash : String
  negativeWeight : Option Rat
  status : EvolutionRunStatus
  updatedAt : String
deriving DecidableEq

/-- The join of the candidates that have a fingerprint with their runs. -/
def suppressionRows
    (candidates : List EvolutionCandidateRow)
    (runs : List EvolutionRunRow)
    (fingerprint : String) : List SuppressionRow :=
  (candidates.filter (·.fingerprint = fingerprint)).flatMap fun candidate =>
    (runs.filter (·.runId = candidate.runId)).map fun run =>
      { sourcePromptHash := candidate.sourcePromptHash
        negativeWeight := candidate.negativeWeight
        status := run.status
        updatedAt := run.updatedAt }

/-- The arguments of a call. -/
structure SuppressionQuery where
  /-- `datetime.fromisoformat`, where a time without an offset is UTC, in seconds. -/
  fromIsoformat : String → Option Time
  sourcePromptHash : String
  negativeWeight : Rat
  now : String
  cooldownDays : Int

namespace SuppressionQuery

variable (query : SuppressionQuery)

/-- `age_days`; a time that cannot be read makes it zero. -/
def ageDays (updatedAt : String) : Rat :=
  match query.fromIsoformat updatedAt, query.fromIsoformat query.now with
  | some closedAt, some now => (now - closedAt) / 86400
  | _, _ => 0

/-- `candidate_is_suppressed`: the loop over the rows. -/
def candidateIsSuppressed : List SuppressionRow → Bool
  | [] => false
  | row :: rest =>
    if row.sourcePromptHash ≠ query.sourcePromptHash then candidateIsSuppressed rest
    else if row.status = .mrOpen ∨ row.status = .merged then true
    else if row.status = .closed ∨ row.status = .failedTerminal then
      if query.ageDays row.updatedAt < query.cooldownDays then
        if 1 ≤ query.negativeWeight - row.negativeWeight.getD 0 then false else true
      else candidateIsSuppressed rest
    else candidateIsSuppressed rest

/-- A run for the same prompt has an open or a merged merge request. -/
def Occupies (row : SuppressionRow) : Prop :=
  row.sourcePromptHash = query.sourcePromptHash ∧ (row.status = .mrOpen ∨ row.status = .merged)

/-- A run for the same prompt was closed or has failed within the cooldown. -/
def Cools (row : SuppressionRow) : Prop :=
  row.sourcePromptHash = query.sourcePromptHash ∧
    (row.status = .closed ∨ row.status = .failedTerminal) ∧
      query.ageDays row.updatedAt < query.cooldownDays

/-- The new weight exceeds the weight of the row by one at least. -/
def Outweighs (row : SuppressionRow) : Prop :=
  1 ≤ query.negativeWeight - row.negativeWeight.getD 0

/-- The row is a reason to suppress the candidate. -/
def Suppresses (row : SuppressionRow) : Prop :=
  query.Occupies row ∨ query.Cools row ∧ ¬ query.Outweighs row

/-- The row ends the loop, and the candidate is not suppressed. -/
def Releases (row : SuppressionRow) : Prop :=
  query.Cools row ∧ query.Outweighs row

instance (row : SuppressionRow) : Decidable (query.Occupies row) :=
  inferInstanceAs (Decidable (_ ∧ _))

instance (row : SuppressionRow) : Decidable (query.Cools row) :=
  inferInstanceAs (Decidable (_ ∧ _))

instance (row : SuppressionRow) : Decidable (query.Outweighs row) :=
  inferInstanceAs (Decidable (_ ≤ _))

instance (row : SuppressionRow) : Decidable (query.Suppresses row) :=
  inferInstanceAs (Decidable (_ ∨ _))

instance (row : SuppressionRow) : Decidable (query.Releases row) :=
  inferInstanceAs (Decidable (_ ∧ _))

variable {query}

theorem Suppresses.not_releases
    {row : SuppressionRow}
    (suppresses : query.Suppresses row) :
    ¬ query.Releases row := by
  rintro ⟨cools, outweighs⟩
  rcases suppresses with occupies | ⟨_, light⟩
  · rcases occupies.2 with opened | merged <;> rcases cools.2.1 with closed | failed <;> simp_all
  · exact light outweighs

theorem candidateIsSuppressed_cons
    (row : SuppressionRow)
    (rest : List SuppressionRow) :
    query.candidateIsSuppressed (row :: rest) =
      if query.Suppresses row then true
      else if query.Releases row then false
      else query.candidateIsSuppressed rest := by
  rw [candidateIsSuppressed]
  by_cases same : row.sourcePromptHash = query.sourcePromptHash
  · cases status : row.status <;>
      by_cases young : query.ageDays row.updatedAt < query.cooldownDays <;>
      by_cases heavy : 1 ≤ query.negativeWeight - row.negativeWeight.getD 0 <;>
      simp [Suppresses, Releases, Occupies, Cools, Outweighs, same, status, young, heavy]
  · simp [Suppresses, Releases, Occupies, Cools, same]

theorem candidateIsSuppressed_iff
    (rows : List SuppressionRow) :
    query.candidateIsSuppressed rows = true ↔
      ∃ before row after, rows = before ++ row :: after ∧ query.Suppresses row ∧
        ∀ earlier ∈ before, ¬ query.Releases earlier := by
  induction rows with
  | nil => simp [candidateIsSuppressed]
  | cons first rest ih =>
      rw [candidateIsSuppressed_cons]
      by_cases suppresses : query.Suppresses first
      · simp only [suppresses, ↓reduceIte, true_iff]
        exact ⟨[], first, rest, rfl, suppresses, fun _ member => absurd member List.not_mem_nil⟩
      by_cases releases : query.Releases first
      · simp only [suppresses, releases, ↓reduceIte, Bool.false_eq_true, false_iff]
        rintro ⟨before, row, after, shape, here, spared⟩
        cases before with
        | nil =>
            rw [List.nil_append] at shape
            cases shape
            exact suppresses here
        | cons head before =>
            rw [List.cons_append] at shape
            cases shape
            exact spared first List.mem_cons_self releases
      · simp only [suppresses, releases, ↓reduceIte]
        rw [ih]
        constructor
        · rintro ⟨before, row, after, rfl, here, spared⟩
          exact ⟨first :: before, row, after, rfl, here,
            List.forall_mem_cons.mpr ⟨releases, spared⟩⟩
        · rintro ⟨before, row, after, shape, here, spared⟩
          cases before with
          | nil =>
              rw [List.nil_append] at shape
              cases shape
              exact absurd here suppresses
          | cons head before =>
              rw [List.cons_append] at shape
              cases shape
              exact ⟨before, row, after, rfl, here, (List.forall_mem_cons.mp spared).2⟩

/-- The decision on some rows is the one the rows call for, in whatever order they are returned. -/
def OrderFree (query : SuppressionQuery) (stored : List SuppressionRow) : Prop :=
  ∀ rows, rows.Perm stored →
    (query.candidateIsSuppressed rows = true ↔ ∃ row ∈ stored, query.Suppresses row)

/--
The decision does not depend on the order of the rows exactly when no row
releases a candidate that another row suppresses.
-/
theorem orderFree_iff
    (stored : List SuppressionRow) :
    OrderFree query stored ↔
      ((∃ row ∈ stored, query.Suppresses row) → ∀ row ∈ stored, ¬ query.Releases row) := by
  constructor
  · intro free suppressed row member releases
    obtain ⟨front, back, rfl⟩ := List.mem_iff_append.mp member
    have first := (free (row :: (front ++ back)) List.perm_middle.symm).mpr suppressed
    rw [candidateIsSuppressed_cons, if_neg fun here => here.not_releases releases,
      if_pos releases] at first
    cases first
  · intro apart rows same
    rw [candidateIsSuppressed_iff]
    constructor
    · rintro ⟨before, row, after, rfl, here, _⟩
      exact ⟨row, same.subset (by simp), here⟩
    · rintro ⟨row, member, here⟩
      obtain ⟨before, after, rfl⟩ := List.mem_iff_append.mp (same.mem_iff.mpr member)
      refine ⟨before, row, after, rfl, here, fun earlier inFront => ?_⟩
      exact apart ⟨row, member, here⟩ earlier
        (same.subset (List.mem_append_left _ inFront))

end SuppressionQuery

/-- The rows decide alone, in whatever order, exactly when no row releases a candidate that another
row suppresses. -/
theorem candidate_suppression_order_free_iff
    (query : SuppressionQuery)
    (candidates : List EvolutionCandidateRow)
    (runs : List EvolutionRunRow)
    (fingerprint : String) :
    let stored := suppressionRows candidates runs fingerprint
    (query.OrderFree stored ↔
      ((∃ row ∈ stored, query.Suppresses row) → ∀ row ∈ stored, ¬ query.Releases row)) ∧
    ∀ rows, rows.Perm stored →
      ((query.candidateIsSuppressed rows = true ↔ ∃ row ∈ stored, query.Suppresses row) ↔
        ((∃ row ∈ stored, query.Suppresses row) →
          ∃ before row after, rows = before ++ row :: after ∧ query.Suppresses row ∧
            ∀ earlier ∈ before, ¬ query.Releases earlier)) := by
  refine ⟨SuppressionQuery.orderFree_iff _, fun rows same => ?_⟩
  rw [SuppressionQuery.candidateIsSuppressed_iff]
  constructor
  · exact Iff.mpr
  · refine fun decided => ⟨?_, decided⟩
    rintro ⟨before, row, after, rfl, here, _⟩
    exact ⟨row, same.subset (by simp), here⟩

namespace SuppressionSample

/-- Three mornings of one month. -/
def query : SuppressionQuery where
  fromIsoformat := fun text =>
    if text = "2026-08-10T00:00:00+00:00" then some 1786320000
    else if text = "2026-08-15T00:00:00+00:00" then some 1786752000
    else if text = "2026-08-20T00:00:00+00:00" then some 1787184000
    else none
  sourcePromptHash := "base"
  negativeWeight := 9 / 2
  now := "2026-08-20T00:00:00+00:00"
  cooldownDays := 14

/-- A first merge request was closed; the candidate came back heavier, and a second one is open. -/
def candidates : List EvolutionCandidateRow :=
  [⟨"run-1", "fingerprint", "base", some 3⟩, ⟨"run-2", "fingerprint", "base", some 4⟩]

def runs : List EvolutionRunRow :=
  [⟨"run-1", .closed, "2026-08-10T00:00:00+00:00"⟩,
    ⟨"run-2", .mrOpen, "2026-08-15T00:00:00+00:00"⟩]

end SuppressionSample

open SuppressionSample in
/-- A candidate with an open merge request is not suppressed behind an older run that was closed. -/
theorem open_merge_request_is_not_seen :
    let stored := suppressionRows candidates runs "fingerprint"
    ¬ query.OrderFree stored ∧ query.candidateIsSuppressed stored = false ∧
      ∃ row ∈ stored, query.Occupies row := by
  have seen : query.candidateIsSuppressed (suppressionRows candidates runs "fingerprint") = false ∧
      ∃ row ∈ suppressionRows candidates runs "fingerprint", query.Occupies row := by
    decide +kernel
  refine ⟨fun free => ?_, seen⟩
  obtain ⟨row, stored, occupies⟩ := seen.2
  have suppressed := (free _ (List.Perm.refl _)).mpr ⟨row, stored, Or.inl occupies⟩
  rw [seen.1] at suppressed
  cases suppressed

end MrAgent
