import Mathlib

namespace KeySort

/-!
# Lists sorted by a key

`sorted(items, key=key)` of Python is stable: items with one key keep their
order. Items that their keys tell apart are sorted in one way only.
-/

variable {α ρ : Type} [LinearOrder ρ]

/-- `sorted(items, key=key)`. -/
def sortedBy (key : α → ρ) (items : List α) : List α :=
  items.insertionSort fun first second => key first ≤ key second

/-- `min(items, key=key)`. -/
def minBy (key : α → ρ) (items : List α) : Option α :=
  items.argmin key

instance keyTotal (key : α → ρ) : Std.Total fun first second => key first ≤ key second :=
  ⟨fun first second => le_total (key first) (key second)⟩

instance keyTrans (key : α → ρ) : IsTrans α fun first second => key first ≤ key second :=
  ⟨fun _ _ _ => le_trans⟩

theorem sortedBy_perm
    (key : α → ρ)
    (items : List α) :
    (sortedBy key items).Perm items :=
  List.perm_insertionSort ..

@[simp]
theorem mem_sortedBy
    {key : α → ρ}
    {items : List α}
    {item : α} :
    item ∈ sortedBy key items ↔ item ∈ items :=
  (sortedBy_perm key items).mem_iff

theorem sortedBy_pairwise
    (key : α → ρ)
    (items : List α) :
    (sortedBy key items).Pairwise fun first second => key first ≤ key second :=
  List.pairwise_insertionSort _ items

theorem eq_of_sorted
    {key : α → ρ}
    {first second : List α}
    (apart : ∀ early ∈ first, ∀ late ∈ second, key early = key late → early = late)
    (same : first.Perm second)
    (firstSorted : first.Pairwise fun early late => key early ≤ key late)
    (secondSorted : second.Pairwise fun early late => key early ≤ key late) :
    first = second := by
  refine same.eq_of_pairwise ?_ firstSorted secondSorted
  intro early late earlyMember lateMember below above
  exact apart early earlyMember late lateMember (le_antisymm below above)

theorem sortedBy_of_perm
    {key : α → ρ}
    {items order : List α}
    (apart : ∀ first ∈ items, ∀ second ∈ items, key first = key second → first = second)
    (same : order.Perm items) :
    sortedBy key order = sortedBy key items := by
  have sorted := ((sortedBy_perm key order).trans same).trans (sortedBy_perm key items).symm
  refine eq_of_sorted ?_ sorted (sortedBy_pairwise key order) (sortedBy_pairwise key items)
  intro first firstRead second secondRead
  exact apart first (same.subset (mem_sortedBy.mp firstRead)) second (mem_sortedBy.mp secondRead)

theorem filter_sortedBy
    (key : α → ρ)
    (items : List α)
    (value : ρ) :
    (sortedBy key items).filter (key · = value) = items.filter (key · = value) := by
  have level : (items.filter (key · = value)).Pairwise
      fun first second => key first ≤ key second := by
    refine List.pairwise_of_forall_mem_list fun first firstMember second secondMember => ?_
    have firstKey := of_decide_eq_true (List.mem_filter.mp firstMember).2
    have secondKey := of_decide_eq_true (List.mem_filter.mp secondMember).2
    exact (firstKey.trans secondKey.symm).le
  have kept := (List.sublist_insertionSort level List.filter_sublist).filter (key · = value)
  rw [List.filter_filter] at kept
  simp only [Bool.and_self] at kept
  exact (kept.eq_of_length_le
    (Nat.le_of_eq ((sortedBy_perm key items).filter (key · = value)).length_eq)).symm

end KeySort
