import MrAgent.SkillBatch

namespace MrAgent.PromptEvolution

open FallibleProgram KeySort

/-!
# The order of the candidates and of their evidence

The evidence of the candidates is put in one order before it is split, so the
split depends on the set of the evidence only. The training candidates are
sorted by their ids, and candidates that share an id keep the order in which
they were given.
-/

/-- The evidence of some list, each piece once, in the order of the ids. -/
structure Deduplicated (evidence result : List Evidence) : Prop where
  same : ∀ item, item ∈ result ↔ item ∈ evidence
  distinct : (result.map (·.suggestionId)).Nodup
  sorted : result.Pairwise fun first second => first.suggestionId ≤ second.suggestionId

/-! ## Deduplicated evidence -/

theorem Deduplicated.unique
    {evidence first second : List Evidence}
    (one : Deduplicated evidence first)
    (other : Deduplicated evidence second) :
    first = second := by
  have same : first.Perm second :=
    (List.perm_ext_iff_of_nodup one.distinct.of_map other.distinct.of_map).mpr fun item =>
      (one.same item).trans (other.same item).symm
  refine eq_of_sorted ?_ same one.sorted other.sorted
  intro early earlyMember late lateMember ids
  exact List.inj_on_of_nodup_map other.distinct (same.subset earlyMember) lateMember ids

theorem Deduplicated.of_perm
    {evidence order result : List Evidence}
    (dedup : Deduplicated evidence result)
    (same : order.Perm evidence) :
    Deduplicated order result :=
  { dedup with same := fun item => (dedup.same item).trans same.mem_iff.symm }

variable {evidence result : List Evidence}

theorem Deduplicated.consistent
    (dedup : Deduplicated evidence result)
    {first second : Evidence}
    (firstMember : first ∈ evidence)
    (secondMember : second ∈ evidence)
    (ids : first.suggestionId = second.suggestionId) :
    first = second :=
  List.inj_on_of_nodup_map dedup.distinct ((dedup.same first).mpr firstMember)
    ((dedup.same second).mpr secondMember) ids

theorem keepEvidence_cases
    {result next : List Evidence}
    {item : Evidence}
    (kept : keepEvidence result item = .ok next) :
    (item ∈ result ∧ next = result) ∨
      (item.suggestionId ∉ result.map (·.suggestionId) ∧ next = result ++ [item]) := by
  rw [keepEvidence] at kept
  split at kept
  · rename_i existing found
    rw [bind_eq_ok] at kept
    obtain ⟨_, checked, made⟩ := kept
    rw [raiseIf_eq_ok, decide_eq_false_iff_not, not_not] at checked
    subst checked
    cases made
    exact Or.inl ⟨List.mem_of_find?_eq_some found, rfl⟩
  · rename_i absent
    cases kept
    refine Or.inr ⟨fun old => ?_, rfl⟩
    obtain ⟨existing, member, ids⟩ := List.mem_map.mp old
    exact List.find?_eq_none.mp absent existing member (decide_eq_true ids)

theorem foldlM_keepEvidence
    {items result final : List Evidence}
    (finished : items.foldlM keepEvidence result = .ok final)
    (distinct : (result.map (·.suggestionId)).Nodup) :
    (final.map (·.suggestionId)).Nodup ∧ ∀ item, item ∈ final ↔ item ∈ result ∨ item ∈ items := by
  induction items generalizing result with
  | nil =>
      cases finished
      exact ⟨distinct, fun item => by simp⟩
  | cons first rest ih =>
      rw [List.foldlM_cons, bind_eq_ok] at finished
      obtain ⟨next, kept, finished⟩ := finished
      rcases keepEvidence_cases kept with ⟨old, rfl⟩ | ⟨fresh, rfl⟩
      · obtain ⟨distinctIds, members⟩ := ih finished distinct
        refine ⟨distinctIds, fun item => ?_⟩
        rw [members, List.mem_cons]
        refine ⟨Or.imp_right Or.inr, ?_⟩
        rintro (stored | rfl | later)
        · exact Or.inl stored
        · exact Or.inl old
        · exact Or.inr later
      · have distinctNext : ((result ++ [first]).map (·.suggestionId)).Nodup := by
          rw [List.map_append, List.map_singleton, ← List.concat_eq_append]
          exact distinct.concat fresh
        obtain ⟨distinctIds, members⟩ := ih finished distinctNext
        refine ⟨distinctIds, fun item => ?_⟩
        rw [members, List.mem_append, List.mem_singleton, List.mem_cons, or_assoc]

theorem foldlM_keepEvidence_ok
    {items result : List Evidence}
    (consistent : ∀ first ∈ result ++ items, ∀ second ∈ result ++ items,
      first.suggestionId = second.suggestionId → first = second) :
    ∃ final, items.foldlM keepEvidence result = .ok final := by
  induction items generalizing result with
  | nil => exact ⟨result, rfl⟩
  | cons first rest ih =>
      rw [List.foldlM_cons]
      have firstMember : first ∈ result ++ first :: rest := by simp
      cases found : result.find? (·.suggestionId = first.suggestionId) with
      | some existing =>
          have stored := List.mem_of_find?_eq_some found
          have alike : existing = first :=
            consistent existing (List.mem_append_left _ stored) first firstMember
              (by simpa using List.find?_some found)
          have kept : keepEvidence result first = .ok result := by
            simp [keepEvidence, found, alike, raiseIf]
          rw [kept]
          refine ih fun one oneMember other otherMember => ?_
          have widen : result ++ rest ⊆ result ++ first :: rest :=
            List.Sublist.subset ((List.sublist_cons_self first rest).append_left result)
          exact consistent one (widen oneMember) other (widen otherMember)
      | none =>
          have kept : keepEvidence result first = .ok (result ++ [first]) := by
            simp [keepEvidence, found]
            rfl
          rw [kept]
          refine ih ?_
          rw [List.append_assoc, List.singleton_append]
          exact consistent

theorem deduplicateEvidence_eq_ok :
    deduplicateEvidence evidence = .ok result ↔ Deduplicated evidence result := by
  have sound : ∀ final, deduplicateEvidence evidence = .ok final → Deduplicated evidence final := by
    intro final finished
    rw [deduplicateEvidence, bind_eq_ok] at finished
    obtain ⟨kept, finished, made⟩ := finished
    cases made
    obtain ⟨distinct, members⟩ := foldlM_keepEvidence finished List.nodup_nil
    refine ⟨fun item => ?_, ?_, sortedBy_pairwise _ kept⟩
    · rw [mem_sortedBy, members, mem_sortedBy]
      simp
    · exact (((sortedBy_perm _ kept).map _).nodup_iff).mpr distinct
  refine ⟨sound result, fun dedup => ?_⟩
  have consistent : ∀ first ∈ [] ++ sortedBy (fun item => toLex (item.suggestionId, item.createdAt))
      evidence, ∀ second ∈ [] ++ sortedBy (fun item => toLex (item.suggestionId, item.createdAt))
      evidence, first.suggestionId = second.suggestionId → first = second := by
    intro first firstMember second secondMember
    rw [List.nil_append, mem_sortedBy] at firstMember secondMember
    exact dedup.consistent firstMember secondMember
  obtain ⟨kept, finished⟩ := foldlM_keepEvidence_ok consistent
  have made : deduplicateEvidence evidence = .ok (sortedBy (·.suggestionId) kept) := by
    rw [deduplicateEvidence, finished]
    rfl
  rw [made, (sound _ made).unique dedup]

/-! ## The order of the candidates -/

/-- The same candidate with its evidence in some order. -/
def Reordered (first second : EligibleCandidate) : Prop :=
  ∃ evidence, evidence.Perm second.cluster.evidence ∧
    first = { second with cluster := { second.cluster with evidence := evidence } }

/-- The same candidates in some order, each with its evidence in some order. -/
def SameCandidates (order candidates : List EligibleCandidate) : Prop :=
  ∃ middle, order.Perm middle ∧ List.Forall₂ Reordered middle candidates

theorem Reordered.refl (candidate : EligibleCandidate) : Reordered candidate candidate :=
  ⟨candidate.cluster.evidence, List.Perm.refl _, rfl⟩

variable {order candidates : List EligibleCandidate}

theorem SameCandidates.of_perm
    (same : order.Perm candidates) :
    SameCandidates order candidates :=
  ⟨candidates, same, List.forall₂_same.mpr fun candidate _ => Reordered.refl candidate⟩

theorem SameCandidates.evidenceOf_perm
    (same : SameCandidates order candidates) :
    (evidenceOf order).Perm (evidenceOf candidates) := by
  obtain ⟨middle, perm, reordered⟩ := same
  refine (perm.flatMap_right _).trans ?_
  clear perm
  induction reordered with
  | nil => exact List.Perm.refl _
  | cons first _ ih =>
      obtain ⟨evidence, evidencePerm, rfl⟩ := first
      exact evidencePerm.append ih

theorem SameCandidates.ids_perm
    (same : SameCandidates order candidates) :
    (order.map (·.candidateId)).Perm (candidates.map (·.candidateId)) := by
  obtain ⟨middle, perm, reordered⟩ := same
  refine (perm.map _).trans ?_
  clear perm
  induction reordered with
  | nil => exact List.Perm.refl _
  | cons first _ ih =>
      obtain ⟨evidence, _, rfl⟩ := first
      exact ih.cons _

theorem SameCandidates.eq_nil_iff
    (same : SameCandidates order candidates) :
    order = [] ↔ candidates = [] := by
  have lengths := same.ids_perm.length_eq
  rw [List.length_map, List.length_map] at lengths
  rw [← List.length_eq_zero_iff, lengths, List.length_eq_zero_iff]

namespace BatchEnv

variable {env : BatchEnv} {limits : BatchLimits} {selectionIds : List String}

theorem rebuildCandidate_eq_some
    {candidate rebuilt : EligibleCandidate}
    (left : env.rebuildCandidate selectionIds candidate = some rebuilt) :
    rebuilt.candidateId = candidate.candidateId ∧
      rebuilt.cluster.evidence = (sortedBy (·.suggestionId) candidate.cluster.evidence).filter
        (·.suggestionId ∉ selectionIds) := by
  rw [rebuildCandidate] at left
  split at left
  · cases left
  · cases left
    exact ⟨rfl, rfl⟩

theorem rebuildCandidate_reordered
    {first second : EligibleCandidate}
    (consistent : ∀ early ∈ second.cluster.evidence, ∀ late ∈ second.cluster.evidence,
      early.suggestionId = late.suggestionId → early = late)
    (reordered : Reordered first second) :
    env.rebuildCandidate selectionIds first = env.rebuildCandidate selectionIds second := by
  obtain ⟨evidence, perm, rfl⟩ := reordered
  simp only [rebuildCandidate]
  rw [sortedBy_of_perm consistent perm]

variable {order candidates : List EligibleCandidate}

theorem filterMap_rebuildCandidate_perm
    (consistent : ∀ early ∈ evidenceOf candidates, ∀ late ∈ evidenceOf candidates,
      early.suggestionId = late.suggestionId → early = late)
    (same : SameCandidates order candidates) :
    (order.filterMap (env.rebuildCandidate selectionIds)).Perm
      (candidates.filterMap (env.rebuildCandidate selectionIds)) := by
  obtain ⟨middle, perm, reordered⟩ := same
  refine (perm.filterMap _).trans ?_
  clear perm
  induction reordered with
  | nil => exact List.Perm.refl _
  | @cons first second _ rest here _ ih =>
      have inFirst : second.cluster.evidence ⊆ evidenceOf (second :: rest) :=
        List.subset_append_left _ _
      have inRest : evidenceOf rest ⊆ evidenceOf (second :: rest) :=
        List.subset_append_right _ _
      have head : env.rebuildCandidate selectionIds first =
          env.rebuildCandidate selectionIds second :=
        rebuildCandidate_reordered
          (fun early earlyMember late lateMember =>
            consistent early (inFirst earlyMember) late (inFirst lateMember)) here
      have tail := ih fun early earlyMember late lateMember =>
        consistent early (inRest earlyMember) late (inRest lateMember)
      rw [List.filterMap_cons, List.filterMap_cons, head]
      split
      · exact tail
      · exact tail.cons _

theorem rebuildTrainingCandidates_sorted
    (candidates : List EligibleCandidate) :
    (env.rebuildTrainingCandidates candidates selectionIds).Pairwise
      fun first second => first.candidateId ≤ second.candidateId := by
  refine List.Pairwise.filterMap _ ?_ (sortedBy_pairwise (·.candidateId) candidates)
  intro first second below early earlyLeft late lateLeft
  rw [(rebuildCandidate_eq_some earlyLeft).1, (rebuildCandidate_eq_some lateLeft).1]
  exact below

/-- Candidates with one id leave the same for training, where they leave anything. -/
def LeaveOne (env : BatchEnv) (selectionIds : List String) (candidates : List EligibleCandidate) :
    Prop :=
  ∀ first ∈ candidates, ∀ second ∈ candidates, first.candidateId = second.candidateId →
    ∀ left right, env.rebuildCandidate selectionIds first = some left →
      env.rebuildCandidate selectionIds second = some right → left = right

theorem leaveOne_of_nodup
    {candidates : List EligibleCandidate}
    (distinct : (candidates.map (·.candidateId)).Nodup) :
    env.LeaveOne selectionIds candidates := by
  intro first firstMember second secondMember ids left right firstLeft secondLeft
  rw [List.inj_on_of_nodup_map distinct firstMember secondMember ids, secondLeft] at firstLeft
  exact (Option.some.inj firstLeft).symm

theorem rebuildTrainingCandidates_congr
    (consistent : ∀ early ∈ evidenceOf candidates, ∀ late ∈ evidenceOf candidates,
      early.suggestionId = late.suggestionId → early = late)
    (alike : env.LeaveOne selectionIds candidates)
    (same : SameCandidates order candidates) :
    env.rebuildTrainingCandidates order selectionIds =
      env.rebuildTrainingCandidates candidates selectionIds := by
  have inOrder := (sortedBy_perm (·.candidateId) order).filterMap (env.rebuildCandidate selectionIds)
  have given := (sortedBy_perm (·.candidateId) candidates).filterMap
    (env.rebuildCandidate selectionIds)
  have perm := (inOrder.trans (filterMap_rebuildCandidate_perm consistent same)).trans given.symm
  refine eq_of_sorted ?_ perm (rebuildTrainingCandidates_sorted order)
    (rebuildTrainingCandidates_sorted candidates)
  intro early earlyMember late lateMember ids
  obtain ⟨first, firstMember, firstLeft⟩ := List.mem_filterMap.mp (perm.subset earlyMember)
  obtain ⟨second, secondMember, secondLeft⟩ := List.mem_filterMap.mp lateMember
  have sameIds : first.candidateId = second.candidateId := by
    rw [← (rebuildCandidate_eq_some firstLeft).1, ids, (rebuildCandidate_eq_some secondLeft).1]
  exact alike first (mem_sortedBy.mp firstMember) second (mem_sortedBy.mp secondMember) sameIds
    early late firstLeft secondLeft

theorem filter_rebuildTrainingCandidates
    (candidates : List EligibleCandidate)
    (candidateId : String) :
    (env.rebuildTrainingCandidates candidates selectionIds).filter
        (·.candidateId = candidateId) =
      (candidates.filter (·.candidateId = candidateId)).filterMap
        (env.rebuildCandidate selectionIds) := by
  rw [rebuildTrainingCandidates, ← filter_sortedBy (·.candidateId) candidates,
    List.filter_filterMap, List.filterMap_filter]
  refine List.filterMap_congr fun candidate _ => ?_
  cases left : env.rebuildCandidate selectionIds candidate with
  | none => simp
  | some rebuilt =>
      rw [Option.filter_some, (rebuildCandidate_eq_some left).1]

end BatchEnv

end MrAgent.PromptEvolution
