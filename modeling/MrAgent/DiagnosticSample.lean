import Mathlib
import MrAgent.GroupedList
import MrAgent.KeySort

namespace MrAgent

/-!
# The diagnostics of a failed job

A log has more diagnostic lines than a prompt takes. The strongest are always
taken, then one for each identity, then lines from the head and the tail of
what is left; the lines that are taken stay in their order.
-/

/-- `DiagnosticCandidate` -/
structure DiagnosticCandidate where
  candidateId : String
  lineNumber : Int
  signal : String
  text : String
  diagnosticIdentity : String
  priority : Int
deriving DecidableEq

/-- A candidate as an object of its own: objects of one list have different places. -/
abbrev PlacedCandidate :=
  DiagnosticCandidate × Nat

/-- `(item.priority, item.line_number)`, of which the lowest is the strongest. -/
def DiagnosticCandidate.strength (item : DiagnosticCandidate) : Lex (Int × Int) :=
  toLex (item.priority, item.lineNumber)

/-- `_positional_priority_sample` -/
def positionalPrioritySample (values : List PlacedCandidate) (limit : Int) : List PlacedCandidate :=
  let bound := (max 1 limit).toNat
  if values.length ≤ bound then values
  else
    let reserveCount := max 1 (bound / 3)
    let reserved := (KeySort.sortedBy (·.1.strength) values).take reserveCount
    let remaining := values.filter (· ∉ reserved)
    let remainingSlots := bound - reserved.length
    let headCount := (remainingSlots + 1) / 2
    let tailCount := remainingSlots - headCount
    let picked := remaining.take headCount ++ remaining.drop (remaining.length - tailCount)
    values.filter (· ∈ reserved ++ picked)

/-- `min(items, key=…)` of the items with one identity. -/
def representative (items : List PlacedCandidate) (identity : String) : Option PlacedCandidate :=
  KeySort.minBy (·.1.strength) (items.filter (·.1.diagnosticIdentity = identity))

/-- `_bounded_candidates` -/
def boundedCandidates (values : List DiagnosticCandidate) (limit : Int) :
    List DiagnosticCandidate :=
  let bound := max 1 limit
  if values.length ≤ bound then values
  else
    let items := values.zipIdx
    let identities := (items.map (·.1.diagnosticIdentity)).eraseDups
    let representatives := identities.filterMap (representative items)
    let sample := positionalPrioritySample representatives bound
    let selected :=
      if sample.length < bound then
        sample ++ positionalPrioritySample (items.filter (· ∉ sample)) (bound - sample.length)
      else sample
    (items.filter (· ∈ selected)).map (·.1)

/-! ## Samples -/

section Samples

variable {α : Type} {values chosen : List α}

theorem perm_filter_mem
    [BEq α]
    [LawfulBEq α]
    (distinct : values.Nodup)
    (once : chosen.Nodup)
    (inside : chosen ⊆ values) :
    (values.filter (· ∈ chosen)).Perm chosen := by
  refine (List.perm_ext_iff_of_nodup (distinct.filter _) once).mpr fun item => ?_
  rw [List.mem_filter, decide_eq_true_iff]
  exact and_iff_right_of_imp fun member => inside member

theorem length_filter_notMem
    [BEq α]
    [LawfulBEq α]
    (distinct : values.Nodup)
    (once : chosen.Nodup)
    (inside : chosen ⊆ values) :
    (values.filter (· ∉ chosen)).length = values.length - chosen.length := by
  have parts := List.length_eq_length_filter_add (l := values) (· ∈ chosen)
  have taken := (perm_filter_mem distinct once inside).length_eq
  have others : values.filter (fun item => !decide (item ∈ chosen)) = values.filter (· ∉ chosen) :=
    List.filter_congr fun item _ => by simp
  rw [others] at parts
  omega

theorem exists_first_sorted
    {ρ : Type}
    [LinearOrder ρ]
    (key : α → ρ)
    (filled : values ≠ []) :
    ∃ best rest, KeySort.sortedBy key values = best :: rest ∧
      ∀ item ∈ values, key best ≤ key item := by
  have perm := KeySort.sortedBy_perm key values
  have sorted := KeySort.sortedBy_pairwise key values
  cases order : KeySort.sortedBy key values with
  | nil =>
      rw [order] at perm
      exact absurd perm.symm.eq_nil filled
  | cons best rest =>
      rw [order] at perm sorted
      refine ⟨best, rest, rfl, fun item member => ?_⟩
      rcases List.mem_cons.mp (perm.mem_iff.mpr member) with rfl | later
      · exact le_rfl
      · exact (List.pairwise_cons.mp sorted).1 item later

variable {head tail : Nat}

theorem sublist_head_tail
    (room : head + tail ≤ values.length) :
    (values.take head ++ values.drop (values.length - tail)).Sublist values := by
  have later : (values.drop (values.length - tail)).Sublist (values.drop head) := by
    have start : head + (values.length - tail - head) = values.length - tail := by omega
    rw [← start, ← List.drop_drop]
    exact List.drop_sublist _ _
  have joined := later.append_left (values.take head)
  rwa [List.take_append_drop] at joined

theorem length_head_tail
    (room : head + tail ≤ values.length) :
    (values.take head ++ values.drop (values.length - tail)).length = head + tail := by
  rw [List.length_append, List.length_take, List.length_drop]
  omega

theorem nodup_zipIdx
    (values : List α) :
    values.zipIdx.Nodup := by
  refine List.Nodup.of_map Prod.snd ?_
  rw [List.zipIdx_map_snd]
  exact List.nodup_range'

end Samples

variable {values : List PlacedCandidate} {limit : Int}

theorem sample_sublist
    (values : List PlacedCandidate)
    (limit : Int) :
    (positionalPrioritySample values limit).Sublist values := by
  unfold positionalPrioritySample
  extract_lets bound
  split
  · exact List.Sublist.refl values
  · exact List.filter_sublist

theorem sample_spec
    (distinct : values.Nodup)
    (positive : 0 < limit) :
    (positionalPrioritySample values limit).length = min limit.toNat values.length ∧
      (values ≠ [] → ∃ best ∈ positionalPrioritySample values limit,
        ∀ item ∈ values, best.1.strength ≤ item.1.strength) := by
  have bounds : (max 1 limit).toNat = limit.toNat ∧ 0 < limit.toNat := by omega
  unfold positionalPrioritySample
  extract_lets bound reserveCount reserved remaining remainingSlots headCount tailCount picked
  have boundEq : bound = limit.toNat := bounds.1
  split
  · next few =>
      refine ⟨by omega, fun filled => ?_⟩
      obtain ⟨best, rest, order, least⟩ := exists_first_sorted (·.1.strength) filled
      refine ⟨best, ?_, least⟩
      have member : best ∈ KeySort.sortedBy (·.1.strength) values := by
        rw [order]
        exact List.mem_cons_self
      exact KeySort.mem_sortedBy.mp member
  · next many =>
      have sorted := KeySort.sortedBy_perm (·.1.strength) values
      have reservedPart : reserved.Sublist (KeySort.sortedBy (·.1.strength) values) :=
        List.take_sublist _ _
      have reservedOnce : reserved.Nodup := (sorted.nodup_iff.mpr distinct).sublist reservedPart
      have reservedInside : reserved ⊆ values := fun item member =>
        sorted.subset (reservedPart.subset member)
      have reservedCount : reserved.length = reserveCount := by
        rw [List.length_take, sorted.length_eq]
        omega
      have rest : remaining.length = values.length - reserved.length :=
        length_filter_notMem distinct reservedOnce reservedInside
      have room : headCount + tailCount ≤ remaining.length := by omega
      have pickedPart : picked.Sublist remaining := sublist_head_tail room
      have chosenOnce : (reserved ++ picked).Nodup := by
        refine reservedOnce.append ((distinct.filter _).sublist pickedPart) ?_
        intro item kept taken
        have fresh := (List.mem_filter.mp (pickedPart.subset taken)).2
        exact of_decide_eq_true fresh kept
      have chosenInside : reserved ++ picked ⊆ values := by
        refine List.append_subset.mpr ⟨reservedInside, fun item member => ?_⟩
        exact (List.mem_filter.mp (pickedPart.subset member)).1
      have chosen : (values.filter (· ∈ reserved ++ picked)).Perm (reserved ++ picked) :=
        perm_filter_mem distinct chosenOnce chosenInside
      constructor
      · rw [chosen.length_eq, List.length_append, length_head_tail room, reservedCount]
        omega
      · intro filled
        obtain ⟨best, others, order, least⟩ := exists_first_sorted (·.1.strength) filled
        refine ⟨best, chosen.mem_iff.mpr (List.mem_append_left _ ?_), least⟩
        change best ∈ (KeySort.sortedBy (·.1.strength) values).take reserveCount
        have start : reserveCount = (reserveCount - 1) + 1 := by omega
        rw [order, start, List.take_succ_cons]
        exact List.mem_cons_self

theorem boundedCandidates_spec
    (values : List DiagnosticCandidate)
    (positive : 0 < limit)
    (long : limit.toNat < values.length) :
    ∃ selected : List PlacedCandidate, selected.Nodup ∧ selected ⊆ values.zipIdx ∧
      boundedCandidates values limit = (values.zipIdx.filter (· ∈ selected)).map (·.1) ∧
      selected.length = limit.toNat ∧
      (∃ best ∈ selected, ∀ item ∈ values, best.1.strength ≤ item.strength) ∧
      ((values.map (·.diagnosticIdentity)).eraseDups.length ≤ limit.toNat →
        ∀ item ∈ values, ∃ kept ∈ selected,
          kept.1.diagnosticIdentity = item.diagnosticIdentity) := by
  have itemsOnce : values.zipIdx.Nodup := nodup_zipIdx values
  unfold boundedCandidates
  extract_lets bound items identities representatives sample selected
  rw [if_neg (by omega)]
  have boundEq : bound = limit := by omega
  have boundPositive : 0 < bound := by omega
  have inside : representatives ⊆ items := by
    intro item member
    obtain ⟨identity, _, chosen⟩ := List.mem_filterMap.mp member
    exact (List.mem_filter.mp (List.argmin_mem chosen)).1
  have representing : ∀ item ∈ items, ∃ chosen ∈ representatives,
      chosen.1.diagnosticIdentity = item.1.diagnosticIdentity ∧
        chosen.1.strength ≤ item.1.strength := by
    intro item member
    have listed : item ∈ items.filter (·.1.diagnosticIdentity = item.1.diagnosticIdentity) :=
      List.mem_filter.mpr ⟨member, decide_eq_true rfl⟩
    have known : item.1.diagnosticIdentity ∈ identities :=
      List.mem_eraseDups.mpr (List.mem_map_of_mem member)
    obtain ⟨chosen, least⟩ : ∃ chosen, representative items item.1.diagnosticIdentity = some chosen := by
      refine Option.ne_none_iff_exists'.mp fun none => ?_
      exact List.ne_nil_of_mem listed (List.argmin_eq_none.mp none)
    have below := List.le_of_mem_argmin (f := fun placed : PlacedCandidate => placed.1.strength)
      listed least
    refine ⟨chosen, List.mem_filterMap.mpr ⟨_, known, least⟩, ?_, below⟩
    exact of_decide_eq_true (List.mem_filter.mp (List.argmin_mem least)).2
  have once : representatives.Nodup := by
    refine List.Nodup.filterMap ?_ (GroupedList.nodup_eraseDups _)
    intro identity other item first second
    have own := (List.mem_filter.mp (List.argmin_mem first)).2
    have again := (List.mem_filter.mp (List.argmin_mem second)).2
    exact (of_decide_eq_true own).symm.trans (of_decide_eq_true again)
  obtain ⟨sampled, strongest⟩ := sample_spec once boundPositive
  have count : sample.length = min bound.toNat representatives.length := sampled
  have samplePart : sample.Sublist representatives := sample_sublist representatives bound
  have sampleOnce : sample.Nodup := once.sublist samplePart
  have sampleInside : sample ⊆ items := fun item member => inside (samplePart.subset member)
  have itemsCount : items.length = values.length := List.length_zipIdx
  have kept : sample ⊆ selected := by
    unfold selected
    split
    · exact List.subset_append_left _ _
    · exact List.Subset.refl sample
  have place : ∀ item ∈ values, ∃ placed ∈ items, placed.1 = item := by
    intro item member
    rw [← List.zipIdx_map_fst 0 values] at member
    exact List.mem_map.mp member
  have size : selected.Nodup ∧ selected ⊆ items ∧ selected.length = limit.toNat := by
    have restCount : (items.filter (· ∉ sample)).length = items.length - sample.length :=
      length_filter_notMem itemsOnce sampleOnce sampleInside
    unfold selected
    split
    · next short =>
        have positive : 0 < bound - sample.length := by omega
        have more := sample_spec (itemsOnce.filter (· ∉ sample)) positive
        have moreInside := (sample_sublist (items.filter (· ∉ sample)) (bound - sample.length)).subset
        refine ⟨sampleOnce.append ((itemsOnce.filter _).sublist (sample_sublist _ _)) ?_, ?_, ?_⟩
        · intro item early late
          exact of_decide_eq_true (List.mem_filter.mp (moreInside late)).2 early
        · exact List.append_subset.mpr
            ⟨sampleInside, fun item member => (List.mem_filter.mp (moreInside member)).1⟩
        · rw [List.length_append, more.1, restCount]
          omega
    · next full => exact ⟨sampleOnce, sampleInside, by omega⟩
  refine ⟨selected, size.1, size.2.1, rfl, size.2.2, ?_, fun few item member => ?_⟩
  · obtain ⟨some, someMember⟩ := List.exists_mem_of_length_pos (l := items) (by omega)
    obtain ⟨_, chosenMember, _⟩ := representing some someMember
    obtain ⟨best, bestMember, least⟩ := strongest (List.ne_nil_of_mem chosenMember)
    refine ⟨best, kept bestMember, fun item member => ?_⟩
    obtain ⟨placed, placedMember, rfl⟩ := place item member
    obtain ⟨chosen, inSample, _, below⟩ := representing placed placedMember
    exact (least chosen inSample).trans below
  · obtain ⟨placed, placedMember, rfl⟩ := place item member
    obtain ⟨chosen, chosenMember, same, _⟩ := representing placed placedMember
    have all : sample = representatives := by
      have counted : identities.length ≤ limit.toNat := by
        have names : items.map (·.1.diagnosticIdentity) = values.map (·.diagnosticIdentity) := by
          rw [← List.zipIdx_map_fst 0 values, List.map_map]
          rfl
        change (items.map (·.1.diagnosticIdentity)).eraseDups.length ≤ _
        rw [names]
        exact few
      have bounded : representatives.length ≤ identities.length := List.length_filterMap_le _ _
      exact samplePart.eq_of_length_le (by omega)
    exact ⟨chosen, kept (all ▸ chosenMember), same⟩

/--
The candidates that are kept are as many as the limit allows, in their order,
with a strongest of all and, where the limit allows it, one of each identity.
-/
theorem bounded_candidates_keep_causes
    (values : List DiagnosticCandidate)
    (limit : Int)
    (positive : 0 < limit) :
    (boundedCandidates values limit).Sublist values ∧
      (boundedCandidates values limit).length = min limit.toNat values.length ∧
      (values ≠ [] → ∃ best ∈ boundedCandidates values limit,
        ∀ item ∈ values, best.strength ≤ item.strength) ∧
      ((values.map (·.diagnosticIdentity)).eraseDups.length ≤ limit.toNat →
        ∀ item ∈ values, ∃ kept ∈ boundedCandidates values limit,
          kept.diagnosticIdentity = item.diagnosticIdentity) := by
  rcases Nat.lt_or_ge limit.toNat values.length with long | short
  · obtain ⟨selected, once, inside, kept, count, ⟨best, bestMember, least⟩, each⟩ :=
      boundedCandidates_spec values positive long
    have places := nodup_zipIdx values
    have found : ∀ item ∈ selected, item.1 ∈ boundedCandidates values limit := by
      intro item member
      rw [kept]
      exact List.mem_map_of_mem
        (List.mem_filter.mpr ⟨inside member, decide_eq_true member⟩)
    refine ⟨?_, ?_, fun _ => ⟨best.1, found best bestMember, least⟩, ?_⟩
    · have part := (List.filter_sublist (p := (· ∈ selected)) (l := values.zipIdx)).map Prod.fst
      rw [List.zipIdx_map_fst] at part
      rw [kept]
      exact part
    · have size : (values.zipIdx.filter (· ∈ selected)).length = selected.length :=
        (perm_filter_mem places once inside).length_eq
      rw [kept, List.length_map, size, count]
      omega
    · intro few item member
      obtain ⟨chosen, chosenMember, same⟩ := each few item member
      exact ⟨chosen.1, found chosen chosenMember, same⟩
  · have whole : boundedCandidates values limit = values := by
      unfold boundedCandidates
      exact if_pos (by omega)
    rw [whole]
    refine ⟨List.Sublist.refl values, by omega, ?_, fun _ item member => ⟨item, member, rfl⟩⟩
    intro filled
    obtain ⟨best, rest, order, least⟩ := exists_first_sorted DiagnosticCandidate.strength filled
    refine ⟨best, ?_, least⟩
    have member : best ∈ KeySort.sortedBy DiagnosticCandidate.strength values := by
      rw [order]
      exact List.mem_cons_self
    exact KeySort.mem_sortedBy.mp member

namespace DiagnosticLog

/-- A fatal error between lines that only follow from it. -/
def lines : List DiagnosticCandidate :=
  [⟨"a", 3, "warning", "falling back", "fallback", 80⟩,
    ⟨"b", 7, "fatal", "fatal error: no such file", "fatal", 10⟩,
    ⟨"c", 8, "error", "job failed", "job", 70⟩,
    ⟨"d", 9, "error", "job failed", "job", 70⟩]

end DiagnosticLog

theorem three_causes_are_kept :
    (boundedCandidates DiagnosticLog.lines 3).length = 3 ∧
      (∃ best ∈ boundedCandidates DiagnosticLog.lines 3,
        ∀ item ∈ DiagnosticLog.lines, best.strength ≤ item.strength) ∧
      ∀ item ∈ DiagnosticLog.lines, ∃ kept ∈ boundedCandidates DiagnosticLog.lines 3,
        kept.diagnosticIdentity = item.diagnosticIdentity := by
  obtain ⟨_, count, strongest, each⟩ :=
    bounded_candidates_keep_causes DiagnosticLog.lines 3 (by decide)
  exact ⟨count, strongest (List.cons_ne_nil _ _), each (by decide +kernel)⟩

end MrAgent
