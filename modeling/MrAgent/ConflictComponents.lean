import Mathlib
import MrAgent.ConflictGroups

namespace MrAgent

/-!
# The groups are connected components

Two suggestions share a group exactly when a chain of conflicts links them, so
the groups are the connected components of size two and more of the conflicts
within one file, whatever the order of the suggestions.
-/

/-! ## Components -/

/-- The groups are the connected components of a relation that have an edge. -/
structure Components (link : Nat → Nat → Prop) (groups : List (List Nat)) : Prop where
  shared : ∀ first second, (∃ group ∈ groups, first ∈ group ∧ second ∈ group) ↔
    Relation.TransGen link first second
  disjoint : groups.Pairwise List.Disjoint
  sizes : ∀ group ∈ groups, 2 ≤ group.length
  sorted : ∀ group ∈ groups, group.Pairwise (· < ·)

theorem Components.perm
    {link : Nat → Nat → Prop}
    {groups others : List (List Nat)}
    (components : Components link groups)
    (shuffled : groups.Perm others) :
    Components link others where
  shared first second := by
    rw [← components.shared]
    simp only [shuffled.mem_iff]
  disjoint := (shuffled.pairwise_iff List.Disjoint.symm).mp components.disjoint
  sizes group member := components.sizes group (shuffled.mem_iff.mpr member)
  sorted group member := components.sorted group (shuffled.mem_iff.mpr member)

/-! ## Pairs -/

theorem mem_orderedPairs
    {α : Type}
    {items : List α}
    {first second : α} :
    (first, second) ∈ orderedPairs items ↔ [first, second].Sublist items := by
  induction items with
  | nil =>
      simp [orderedPairs]
  | cons item rest ih =>
      rw [orderedPairs, List.mem_append, ih, List.mem_map]
      constructor
      · rintro (⟨other, member, same⟩ | later)
        · obtain ⟨rfl, rfl⟩ := Prod.mk.inj same
          exact (List.singleton_sublist.mpr member).cons_cons item
        · exact later.cons item
      · intro sublist
        cases sublist with
        | cons _ later => exact Or.inr later
        | cons_cons _ further => exact Or.inl ⟨second, List.singleton_sublist.mp further, rfl⟩

theorem mem_orderedPairs_of_ne
    {α : Type}
    {items : List α}
    {first second : α}
    (inFirst : first ∈ items)
    (inSecond : second ∈ items)
    (distinct : first ≠ second) :
    (first, second) ∈ orderedPairs items ∨ (second, first) ∈ orderedPairs items := by
  induction items with
  | nil =>
      cases inFirst
  | cons item rest ih =>
      simp only [orderedPairs, List.mem_append, List.mem_map, Prod.mk.injEq]
      rcases List.mem_cons.mp inFirst with rfl | firstLater
      · rcases List.mem_cons.mp inSecond with rfl | secondLater
        · exact absurd rfl distinct
        · exact Or.inl (Or.inl ⟨second, secondLater, rfl, rfl⟩)
      · rcases List.mem_cons.mp inSecond with rfl | secondLater
        · exact Or.inr (Or.inl ⟨first, firstLater, rfl, rfl⟩)
        · exact (ih firstLater secondLater).imp Or.inr Or.inr

theorem foldl_pairScan
    (fuel : Nat)
    (conflict : Nat → Nat → Bool)
    (pairs : List (Nat × Nat)) :
    let scan := pairs.foldl (PairScan.step fuel conflict) {}
    let edges := pairs.filter fun pair => conflict pair.1 pair.2
    scan.parent = ParentForest.unite fuel id edges ∧
      ∀ index, scan.hasEdge index = true ↔ ∃ edge ∈ edges, index = edge.1 ∨ index = edge.2 := by
  induction pairs using List.reverseRecOn with
  | nil =>
      simp [ParentForest.unite]
  | append_singleton pairs pair ih =>
      obtain ⟨parent, marked⟩ := ih
      dsimp only
      rw [List.foldl_append, List.filter_append, List.foldl_cons, List.foldl_nil]
      cases conflicting : conflict pair.1 pair.2 with
      | false =>
          have none : [pair].filter (fun pair => conflict pair.1 pair.2) = [] := by
            simp [conflicting]
          rw [none, List.append_nil, PairScan.step, conflicting]
          exact ⟨parent, marked⟩
      | true =>
          have one : [pair].filter (fun pair => conflict pair.1 pair.2) = [pair] := by
            simp [conflicting]
          rw [one, PairScan.step, conflicting, if_pos rfl]
          refine ⟨by simp [ParentForest.unite, parent], fun index => ?_⟩
          by_cases isFirst : index = pair.1
          · subst isFirst
            simp only [Function.update_self, true_iff]
            exact ⟨pair, by simp, Or.inl rfl⟩
          · dsimp only
            rw [Function.update_of_ne isFirst]
            by_cases isSecond : index = pair.2
            · subst isSecond
              simp only [Function.update_self, true_iff]
              exact ⟨pair, by simp, Or.inr rfl⟩
            · rw [Function.update_of_ne isSecond, marked]
              constructor
              · rintro ⟨edge, member, incident⟩
                exact ⟨edge, List.mem_append_left _ member, incident⟩
              · rintro ⟨edge, member, incident⟩
                rcases List.mem_append.mp member with earlier | isLast
                · exact ⟨edge, earlier, incident⟩
                · rw [List.mem_singleton.mp isLast] at incident
                  exact absurd incident (by simp [isFirst, isSecond])

/-! ## One file -/

/-- Two of the suggestions of a file conflict. -/
def FileLink (conflict : Nat → Nat → Bool) (indices : List Nat) (first second : Nat) : Prop :=
  first ∈ indices ∧ second ∈ indices ∧ first ≠ second ∧ conflict first second = true

section File

variable {conflict : Nat → Nat → Bool} {indices : List Nat}

variable {first second : Nat}

theorem edge_or_reverse
    (symmetric : ∀ first second, conflict first second = conflict second first)
    (link : FileLink conflict indices first second) :
    (first, second) ∈ (orderedPairs indices).filter (fun pair => conflict pair.1 pair.2) ∨
      (second, first) ∈ (orderedPairs indices).filter fun pair => conflict pair.1 pair.2 := by
  obtain ⟨inFirst, inSecond, distinct, conflicting⟩ := link
  rcases mem_orderedPairs_of_ne inFirst inSecond distinct with ordered | reversed
  · exact Or.inl (List.mem_filter.mpr ⟨ordered, conflicting⟩)
  · refine Or.inr (List.mem_filter.mpr ⟨reversed, ?_⟩)
    exact (symmetric second first).trans conflicting

theorem link_of_edge
    (distinct : indices.Nodup)
    (edge : (first, second) ∈ (orderedPairs indices).filter fun pair => conflict pair.1 pair.2) :
    FileLink conflict indices first second := by
  obtain ⟨pair, conflicting⟩ := List.mem_filter.mp edge
  have sublist := mem_orderedPairs.mp pair
  have apart := distinct.sublist sublist
  exact ⟨sublist.subset (by simp), sublist.subset (by simp), by simpa using apart, conflicting⟩

theorem FileLink.symm
    (symmetric : ∀ first second, conflict first second = conflict second first)
    (link : FileLink conflict indices first second) :
    FileLink conflict indices second first :=
  ⟨link.2.1, link.1, link.2.2.1.symm, (symmetric second first).trans link.2.2.2⟩

theorem eqvGen_edges_iff
    (symmetric : ∀ first second, conflict first second = conflict second first)
    (distinct : indices.Nodup)
    (incident : ∃ third, FileLink conflict indices first third) :
    Relation.EqvGen (fun one two =>
      (one, two) ∈ (orderedPairs indices).filter fun pair => conflict pair.1 pair.2) first second ↔
      Relation.TransGen (FileLink conflict indices) first second := by
  constructor
  · intro chain
    have links : Relation.ReflTransGen (FileLink conflict indices) first second := by
      have symm : Std.Symm (FileLink conflict indices) :=
        ⟨fun _ _ link => link.symm symmetric⟩
      rw [← Relation.EqvGen.eqvGen_eq_reflTransGen]
      exact Relation.EqvGen.mono (fun _ _ edge => link_of_edge distinct edge) _ _ chain
    rcases Relation.reflTransGen_iff_eq_or_transGen.mp links with rfl | chain
    · obtain ⟨third, link⟩ := incident
      exact (Relation.TransGen.single link).tail (link.symm symmetric)
    · exact chain
  · intro chain
    have edges : ∀ one two, FileLink conflict indices one two →
        Relation.EqvGen (fun one two =>
          (one, two) ∈ (orderedPairs indices).filter fun pair => conflict pair.1 pair.2)
          one two := by
      intro one two link
      rcases edge_or_reverse symmetric link with edge | reversed
      · exact Relation.EqvGen.rel _ _ edge
      · exact (Relation.EqvGen.rel _ _ reversed).symm _ _
    induction chain with
    | single link => exact edges _ _ link
    | tail _ link ih => exact ih.trans _ _ _ (edges _ _ link)

theorem hasEdge_iff
    (symmetric : ∀ first second, conflict first second = conflict second first)
    (distinct : indices.Nodup)
    (index : Nat) :
    (fileScan conflict indices).hasEdge index = true ↔
      ∃ other, FileLink conflict indices index other := by
  rw [fileScan, (foldl_pairScan (searchFuel indices) conflict (orderedPairs indices)).2]
  constructor
  · rintro ⟨edge, member, rfl | rfl⟩
    · exact ⟨edge.2, link_of_edge distinct member⟩
    · exact ⟨edge.1, (link_of_edge distinct member).symm symmetric⟩
  · rintro ⟨other, link⟩
    rcases edge_or_reverse symmetric link with edge | reversed
    · exact ⟨_, edge, Or.inl rfl⟩
    · exact ⟨_, reversed, Or.inr rfl⟩

/-- The root that a search finds behind the loops over the pairs. -/
def groupRoot (conflict : Nat → Nat → Bool) (indices : List Nat) (index : Nat) : Nat :=
  (ParentForest.find (searchFuel indices) (fileScan conflict indices).parent index).2

theorem fileScan_spec
    (symmetric : ∀ first second, conflict first second = conflict second first)
    (distinct : indices.Nodup) :
    GroupedList.Grouped (groupRoot conflict indices)
        (indices.filter (fileScan conflict indices).hasEdge)
        (ParentForest.collect (searchFuel indices) (fileScan conflict indices).parent
          (indices.filter (fileScan conflict indices).hasEdge) []) ∧
      ∀ first second, (∃ third, FileLink conflict indices first third) →
        (groupRoot conflict indices first = groupRoot conflict indices second ↔
          Relation.TransGen (FileLink conflict indices) first second) := by
  have parent := (foldl_pairScan (searchFuel indices) conflict (orderedPairs indices)).1
  have few : ((orderedPairs indices).filter fun pair => conflict pair.1 pair.2).length <
      searchFuel indices := Nat.lt_succ_of_le (List.length_filter_le _ _)
  obtain ⟨⟨height, forest⟩, joined⟩ :=
    ParentForest.unite_spec ((orderedPairs indices).filter fun pair => conflict pair.1 pair.2)
      few.le
  rw [← parent] at forest joined
  refine ⟨ParentForest.grouped_collect forest few _, fun first second incident => ?_⟩
  exact (ParentForest.find_eq_iff forest few first second).trans
    ((joined first second).trans (eqvGen_edges_iff symmetric distinct incident))

theorem components_fileGroups
    (symmetric : ∀ first second, conflict first second = conflict second first)
    (increasing : indices.Pairwise (· < ·)) :
    Components (FileLink conflict indices) (fileGroups conflict indices) := by
  have distinct : indices.Nodup := increasing.imp fun ordered => ordered.ne
  obtain ⟨grouped, roots⟩ := fileScan_spec symmetric distinct
  have ordered : ∀ comp ∈ ParentForest.collect (searchFuel indices)
      (fileScan conflict indices).parent
      (indices.filter (fileScan conflict indices).hasEdge) [], comp.2.Pairwise (· < ·) := by
    intro comp member
    rw [grouped.members comp member]
    exact (increasing.filter _).filter _
  have groups : fileGroups conflict indices =
      ((ParentForest.collect (searchFuel indices) (fileScan conflict indices).parent
        (indices.filter (fileScan conflict indices).hasEdge) []).map (·.2)).filter
          (2 ≤ ·.length) := by
    rw [fileGroups]
    refine (List.map_congr_left fun group member => ?_).trans (List.map_id _)
    obtain ⟨comp, inComps, rfl⟩ := List.mem_map.mp (List.mem_filter.mp member).1
    exact ((ordered comp inComps).imp fun less => less.le).insertionSort_eq
  have mem_group : ∀ group, group ∈ fileGroups conflict indices ↔
      ∃ comp ∈ ParentForest.collect (searchFuel indices) (fileScan conflict indices).parent
        (indices.filter (fileScan conflict indices).hasEdge) [],
        comp.2 = group ∧ 2 ≤ group.length := by
    intro group
    rw [groups, List.mem_filter, List.mem_map]
    simp only [decide_eq_true_eq]
    constructor
    · rintro ⟨⟨comp, member, rfl⟩, size⟩
      exact ⟨comp, member, rfl, size⟩
    · rintro ⟨comp, member, rfl, size⟩
      exact ⟨⟨comp, member, rfl⟩, size⟩
  have incident : ∀ index, index ∈ indices.filter (fileScan conflict indices).hasEdge ↔
      ∃ other, FileLink conflict indices index other := by
    intro index
    rw [List.mem_filter, hasEdge_iff symmetric distinct]
    exact ⟨fun both => both.2, fun link => ⟨link.choose_spec.1, link⟩⟩
  refine ⟨fun first second => ⟨?_, fun chain => ?_⟩, ?_, ?_, ?_⟩
  · rintro ⟨group, member, inFirst, inSecond⟩
    obtain ⟨comp, inComps, rfl, -⟩ := (mem_group group).mp member
    rw [grouped.members comp inComps, List.mem_filter, beq_iff_eq] at inFirst inSecond
    have link := (incident first).mp inFirst.1
    exact (roots first second link).mp (inFirst.2.trans inSecond.2.symm)
  · have inFirst : first ∈ indices.filter (fileScan conflict indices).hasEdge := by
      obtain ⟨next, link, -⟩ := Relation.TransGen.head'_iff.mp chain
      exact (incident first).mpr ⟨next, link⟩
    have inSecond : second ∈ indices.filter (fileScan conflict indices).hasEdge := by
      obtain ⟨last, -, link⟩ := Relation.TransGen.tail'_iff.mp chain
      exact (incident second).mpr ⟨last, link.symm symmetric⟩
    obtain ⟨third, link⟩ := (incident first).mp inFirst
    have inThird : third ∈ indices.filter (fileScan conflict indices).hasEdge :=
      (incident third).mpr ⟨first, link.symm symmetric⟩
    obtain ⟨comp, inComps, name⟩ := grouped.covered first inFirst
    have member : ∀ index ∈ indices.filter (fileScan conflict indices).hasEdge,
        Relation.TransGen (FileLink conflict indices) first index → index ∈ comp.2 := by
      intro index inElements further
      rw [grouped.members comp inComps, List.mem_filter, beq_iff_eq, name]
      exact ⟨inElements, ((roots first index ⟨third, link⟩).mpr further).symm⟩
    have own : first ∈ comp.2 := by
      rw [grouped.members comp inComps, List.mem_filter, beq_iff_eq, name]
      exact ⟨inFirst, rfl⟩
    have other : third ∈ comp.2 := member third inThird (Relation.TransGen.single link)
    have size : 2 ≤ comp.2.length := by
      have pair : [first, third].Nodup := by
        simpa using link.2.2.1
      exact (pair.subperm (by simp [own, other])).length_le
    exact ⟨comp.2, (mem_group comp.2).mpr ⟨comp, inComps, rfl, size⟩, own,
      member second inSecond chain⟩
  · rw [groups]
    refine List.Pairwise.filter _ ?_
    rw [List.pairwise_map]
    have names := List.pairwise_map.mp grouped.names
    refine names.imp_of_mem fun inFirst inSecond apart index inOne inOther => apart ?_
    rw [grouped.members _ inFirst, List.mem_filter, beq_iff_eq] at inOne
    rw [grouped.members _ inSecond, List.mem_filter, beq_iff_eq] at inOther
    exact inOne.2.symm.trans inOther.2
  · intro group member
    obtain ⟨comp, -, rfl, size⟩ := (mem_group group).mp member
    exact size
  · intro group member
    obtain ⟨comp, inComps, rfl, -⟩ := (mem_group group).mp member
    exact ordered comp inComps

theorem components_of_short (short : indices.length < 2) :
    Components (FileLink conflict indices) [] where
  shared first second := by
    constructor
    · rintro ⟨group, member, -⟩
      cases member
    · intro chain
      obtain ⟨next, link, -⟩ := Relation.TransGen.head'_iff.mp chain
      have pair : [first, next].Nodup := by
        simpa using link.2.2.1
      have inside : [first, next] ⊆ indices := by
        simp [link.1, link.2.1]
      have size := (pair.subperm inside).length_le
      simp only [List.length_cons, List.length_nil] at size
      omega
  disjoint := List.Pairwise.nil
  sizes := by simp
  sorted := by simp

end File

/-! ## All files -/

section Parts

variable {β : Type} {parts : List β} {members : β → List Nat} {link : β → Nat → Nat → Prop}

theorem transGen_parts_iff
    (inside : ∀ part first second, link part first second →
      first ∈ members part ∧ second ∈ members part)
    (apart : parts.Pairwise fun one two => (members one).Disjoint (members two))
    {first second : Nat} :
    Relation.TransGen (fun one two => ∃ part ∈ parts, link part one two) first second ↔
      ∃ part ∈ parts, Relation.TransGen (link part) first second := by
  have symm : Std.Symm fun one two => (members one).Disjoint (members two) :=
    ⟨fun _ _ disjoint => disjoint.symm⟩
  constructor
  · intro chain
    induction chain with
    | single link =>
        obtain ⟨part, member, linked⟩ := link
        exact ⟨part, member, Relation.TransGen.single linked⟩
    | @tail middle last _ link ih =>
        obtain ⟨part, member, chain⟩ := ih
        obtain ⟨other, inParts, linked⟩ := link
        obtain ⟨previous, -, arrives⟩ := Relation.TransGen.tail'_iff.mp chain
        have inPart := (inside part previous middle arrives).2
        have inOther := (inside other middle last linked).1
        -- The middle element is in both parts, so they are one.
        have same : part = other := by
          by_contra distinct
          exact apart.forall member inParts distinct inPart inOther
        subst same
        exact ⟨part, member, chain.tail linked⟩
  · rintro ⟨part, member, chain⟩
    exact Relation.TransGen.mono (fun _ _ linked => ⟨part, member, linked⟩) _ _ chain

variable (members link) in
theorem components_flatMap
    (groups : β → List (List Nat))
    (inside : ∀ part first second, link part first second →
      first ∈ members part ∧ second ∈ members part)
    (apart : parts.Pairwise fun one two => (members one).Disjoint (members two))
    (each : ∀ part ∈ parts, Components (link part) (groups part)) :
    Components (fun one two => ∃ part ∈ parts, link part one two) (parts.flatMap groups) where
  shared first second := by
    rw [transGen_parts_iff inside apart]
    constructor
    · rintro ⟨group, member, both⟩
      obtain ⟨part, inParts, inGroups⟩ := List.mem_flatMap.mp member
      exact ⟨part, inParts, ((each part inParts).shared first second).mp ⟨group, inGroups, both⟩⟩
    · rintro ⟨part, inParts, chain⟩
      obtain ⟨group, inGroups, both⟩ := ((each part inParts).shared first second).mpr chain
      exact ⟨group, List.mem_flatMap.mpr ⟨part, inParts, inGroups⟩, both⟩
  disjoint := by
    have within : ∀ part ∈ parts, ∀ group ∈ groups part, ∀ index ∈ group,
        index ∈ members part := by
      intro part inParts group member index inGroup
      have chain := ((each part inParts).shared index index).mp ⟨group, member, inGroup, inGroup⟩
      obtain ⟨next, linked, -⟩ := Relation.TransGen.head'_iff.mp chain
      exact (inside part index next linked).1
    refine List.pairwise_flatMap.mpr ⟨fun part inParts => (each part inParts).disjoint, ?_⟩
    refine apart.imp_of_mem ?_
    intro one two inOne inTwo disjoint group member other otherMember index inGroup inOther
    exact disjoint (within one inOne group member index inGroup)
      (within two inTwo other otherMember index inOther)
  sizes group member := by
    obtain ⟨part, inParts, inGroups⟩ := List.mem_flatMap.mp member
    exact (each part inParts).sizes group inGroups
  sorted group member := by
    obtain ⟨part, inParts, inGroups⟩ := List.mem_flatMap.mp member
    exact (each part inParts).sorted group inGroups

end Parts

section Pairs

variable {env : WordEnv} {first second : FixSuggestion} {headFile : String} {adjacency : Int}

theorem linesOverlapOrAdjacent_comm :
    linesOverlapOrAdjacent first second adjacency =
      linesOverlapOrAdjacent second first adjacency := by
  unfold linesOverlapOrAdjacent
  cases first.linesStart with
  | none => cases second.linesStart <;> cases second.linesEnd <;> rfl
  | some firstStart =>
      cases first.linesEnd with
      | none => cases second.linesStart <;> cases second.linesEnd <;> rfl
      | some firstEnd =>
          cases second.linesStart with
          | none => rfl
          | some secondStart =>
              cases second.linesEnd with
              | none => rfl
              | some secondEnd =>
                  simp only [and_comm, min_comm]

theorem conflictPair_comm :
    env.conflictPair first second headFile adjacency =
      env.conflictPair second first headFile adjacency := by
  have shared : ((env.newIdentifiers first.improvedCode headFile).any
      (· ∈ env.newIdentifiers second.improvedCode headFile)) =
      ((env.newIdentifiers second.improvedCode headFile).any
        (· ∈ env.newIdentifiers first.improvedCode headFile)) := by
    rw [Bool.eq_iff_iff]
    simp only [List.any_eq_true, decide_eq_true_eq]
    exact ⟨fun ⟨word, left, right⟩ => ⟨word, right, left⟩,
      fun ⟨word, left, right⟩ => ⟨word, right, left⟩⟩
  have origins : (first.originId.isSome && decide (first.originId = second.originId)) =
      (second.originId.isSome && decide (second.originId = first.originId)) := by
    by_cases same : first.originId = second.originId
    · rw [same]
    · simp [same, Ne.symm same]
  unfold WordEnv.conflictPair
  rw [origins, linesOverlapOrAdjacent_comm, shared, Bool.and_comm (env.isNewDeclaration _)]

theorem conflictAt_comm
    {suggestions : List FixSuggestion}
    (one two : Nat) :
    env.conflictAt headFile adjacency suggestions one two =
      env.conflictAt headFile adjacency suggestions two one := by
  unfold WordEnv.conflictAt
  cases suggestions[one]? with
  | none => cases suggestions[two]? <;> rfl
  | some a =>
      cases suggestions[two]? with
      | none => rfl
      | some b => exact conflictPair_comm

end Pairs

/-! ## Detection -/

/-- Two suggestions of one file conflict. -/
def ConflictLink
    (env : WordEnv)
    (headMap : HeadMap)
    (adjacency : Int)
    (suggestions : List FixSuggestion)
    (first second : Nat) : Prop :=
  ∃ a b, suggestions[first]? = some a ∧ suggestions[second]? = some b ∧ first ≠ second ∧
    a.file = b.file ∧ a.file ≠ [] ∧
    env.conflictPair a b (headFor headMap a.file) adjacency = true

/-- The positions of the suggestions that name a file. -/
def namedIndices (suggestions : List FixSuggestion) : List Nat :=
  (List.range suggestions.length).filter fun index => fileAt suggestions index ≠ []

section Detection

variable {env : WordEnv} {headMap : HeadMap} {adjacency : Int} {suggestions : List FixSuggestion}

theorem fileAt_of_getElem?
    {index : Nat}
    {suggestion : FixSuggestion}
    (found : suggestions[index]? = some suggestion) :
    fileAt suggestions index = suggestion.file := by
  simp [fileAt, found]

theorem mem_namedIndices {index : Nat} :
    index ∈ namedIndices suggestions ↔
      ∃ suggestion, suggestions[index]? = some suggestion ∧ suggestion.file ≠ [] := by
  rw [namedIndices, List.mem_filter, List.mem_range]
  constructor
  · rintro ⟨bound, named⟩
    have found : suggestions[index]? = some suggestions[index] :=
      List.getElem?_eq_getElem bound
    rw [fileAt_of_getElem? found] at named
    exact ⟨_, found, by simpa using named⟩
  · rintro ⟨suggestion, found, named⟩
    obtain ⟨bound, -⟩ := List.getElem?_eq_some_iff.mp found
    rw [fileAt_of_getElem? found]
    exact ⟨bound, by simpa using named⟩

theorem fileLink_iff
    {file : List Char}
    {first second : Nat} :
    FileLink (env.conflictAt (headFor headMap file) adjacency suggestions)
        ((namedIndices suggestions).filter fun index => fileAt suggestions index == file)
        first second ↔
      ConflictLink env headMap adjacency suggestions first second ∧
        fileAt suggestions first = file := by
  simp only [FileLink, List.mem_filter, beq_iff_eq, mem_namedIndices]
  constructor
  · rintro ⟨⟨⟨a, foundFirst, named⟩, own⟩, ⟨⟨b, foundSecond, -⟩, other⟩, distinct, conflicting⟩
    rw [fileAt_of_getElem? foundFirst] at own
    rw [fileAt_of_getElem? foundSecond] at other
    rw [WordEnv.conflictAt, foundFirst, foundSecond] at conflicting
    refine ⟨⟨a, b, foundFirst, foundSecond, distinct, own.trans other.symm, named, ?_⟩, ?_⟩
    · rw [own]
      exact conflicting
    · rw [fileAt_of_getElem? foundFirst, own]
  · rintro ⟨⟨a, b, foundFirst, foundSecond, distinct, same, named, conflicting⟩, own⟩
    rw [fileAt_of_getElem? foundFirst] at own ⊢
    rw [fileAt_of_getElem? foundSecond, ← same, WordEnv.conflictAt, foundFirst, foundSecond, ← own]
    exact ⟨⟨⟨a, rfl, named⟩, rfl⟩, ⟨⟨b, rfl, same ▸ named⟩, rfl⟩, distinct, conflicting⟩

theorem components_detectConflictGroups :
    Components (ConflictLink env headMap adjacency suggestions)
      (env.detectConflictGroups headMap adjacency suggestions) := by
  have grouped := GroupedList.grouped_groupOn (fileAt suggestions) (namedIndices suggestions)
  have increasing : (namedIndices suggestions).Pairwise (· < ·) :=
    List.pairwise_lt_range.filter _
  have apart : (GroupedList.groupOn (fileAt suggestions) (namedIndices suggestions)).Pairwise
      fun one two => one.2.Disjoint two.2 := by
    refine (List.pairwise_map.mp grouped.names).imp_of_mem ?_
    intro one two inOne inTwo distinct index first second
    rw [grouped.members one inOne, List.mem_filter, beq_iff_eq] at first
    rw [grouped.members two inTwo, List.mem_filter, beq_iff_eq] at second
    exact distinct (first.2.symm.trans second.2)
  have components := components_flatMap (fun entry : List Char × List Nat => entry.2)
    (fun entry => FileLink
      (env.conflictAt (headFor headMap entry.1) adjacency suggestions) entry.2)
    (fun entry => if entry.2.length < 2 then []
      else fileGroups (env.conflictAt (headFor headMap entry.1) adjacency suggestions) entry.2)
    (fun _ _ _ link => ⟨link.1, link.2.1⟩) apart ?_
  · have links : (fun one two => ∃ entry ∈ GroupedList.groupOn (fileAt suggestions)
        (namedIndices suggestions), FileLink
          (env.conflictAt (headFor headMap entry.1) adjacency suggestions) entry.2 one two) =
        ConflictLink env headMap adjacency suggestions := by
      funext one two
      refine propext ⟨?_, fun link => ?_⟩
      · rintro ⟨entry, member, link⟩
        rw [grouped.members entry member] at link
        exact (fileLink_iff.mp link).1
      · have ⟨a, _, found, _, _, _, named, _⟩ := link
        obtain ⟨entry, member, name⟩ :=
          grouped.covered one (mem_namedIndices.mpr ⟨a, found, named⟩)
        refine ⟨entry, member, ?_⟩
        rw [grouped.members entry member]
        exact fileLink_iff.mpr ⟨link, name.symm⟩
    rw [links] at components
    exact components.perm (List.perm_insertionSort _ _).symm
  · intro entry member
    by_cases short : entry.2.length < 2
    · rw [if_pos short]
      exact components_of_short short
    · rw [if_neg short]
      refine components_fileGroups conflictAt_comm ?_
      rw [grouped.members entry member]
      exact increasing.filter _

theorem pairwise_head_detectConflictGroups :
    (env.detectConflictGroups headMap adjacency suggestions).Pairwise
      fun first second => first.headD 0 < second.headD 0 := by
  have components : Components (ConflictLink env headMap adjacency suggestions)
      (env.detectConflictGroups headMap adjacency suggestions) :=
    components_detectConflictGroups
  have total : Std.Total fun first second : List Nat => first.headD 0 ≤ second.headD 0 :=
    ⟨fun first second => Nat.le_total _ _⟩
  have trans : IsTrans (List Nat) fun first second => first.headD 0 ≤ second.headD 0 :=
    ⟨fun _ _ _ => Nat.le_trans⟩
  have ordered : (env.detectConflictGroups headMap adjacency suggestions).Pairwise
      fun first second => first.headD 0 ≤ second.headD 0 :=
    List.pairwise_insertionSort _ _
  have head : ∀ group ∈ env.detectConflictGroups headMap adjacency suggestions,
      group.headD 0 ∈ group := by
    intro group member
    have size := components.sizes group member
    cases group with
    | nil => simp at size
    | cons first rest => simp
  refine (ordered.and components.disjoint).imp_of_mem ?_
  rintro first second inFirst inSecond ⟨atMost, disjoint⟩
  refine Nat.lt_of_le_of_ne atMost fun same => ?_
  exact disjoint (head first inFirst) (same ▸ head second inSecond)

end Detection

/-! ## Reordered suggestions -/

/-- The suggestions in another order. -/
def reorder
    (suggestions : List FixSuggestion)
    (order : Equiv.Perm (Fin suggestions.length)) : List FixSuggestion :=
  List.ofFn fun position => suggestions.get (order position)

theorem getElem?_reorder
    (suggestions : List FixSuggestion)
    (order : Equiv.Perm (Fin suggestions.length))
    (position : Fin suggestions.length) :
    (reorder suggestions order)[position.val]? = suggestions[(order position).val]? := by
  simp [reorder]

variable {suggestions : List FixSuggestion} {headMap : HeadMap} {env : WordEnv} {adjacency : Int}

theorem conflictLink_reorder
    (order : Equiv.Perm (Fin suggestions.length))
    (first second : Fin suggestions.length) :
    ConflictLink env headMap adjacency (reorder suggestions order) first second ↔
      ConflictLink env headMap adjacency suggestions (order first) (order second) := by
  have distinct : first.val ≠ second.val ↔ (order first).val ≠ (order second).val := by
    rw [Fin.val_ne_iff, Fin.val_ne_iff, order.injective.ne_iff]
  simp only [ConflictLink, getElem?_reorder, distinct]

theorem ConflictLink.lt_length
    {first second : Nat}
    (link : ConflictLink env headMap adjacency suggestions first second) :
    first < suggestions.length ∧ second < suggestions.length := by
  obtain ⟨a, b, foundFirst, foundSecond, -⟩ := link
  exact ⟨(List.getElem?_eq_some_iff.mp foundFirst).1, (List.getElem?_eq_some_iff.mp foundSecond).1⟩

/-- A permutation of the positions on all numbers. -/
def onPositions {size : Nat} (order : Equiv.Perm (Fin size)) (index : Nat) : Nat :=
  if bound : index < size then order ⟨index, bound⟩ else index

theorem onPositions_val {size : Nat} (order : Equiv.Perm (Fin size)) (position : Fin size) :
    onPositions order position = order position := by
  simp [onPositions]

theorem transGen_conflictLink_reorder
    (env : WordEnv)
    (headMap : HeadMap)
    (adjacency : Int)
    (suggestions : List FixSuggestion)
    (order : Equiv.Perm (Fin suggestions.length))
    (first second : Fin suggestions.length) :
    Relation.TransGen (ConflictLink env headMap adjacency (reorder suggestions order))
        first second ↔
      Relation.TransGen (ConflictLink env headMap adjacency suggestions)
        (order first) (order second) := by
  constructor
  · intro chain
    have moves : ∀ one two,
        ConflictLink env headMap adjacency (reorder suggestions order) one two →
          ConflictLink env headMap adjacency suggestions
            (onPositions order one) (onPositions order two) := by
      intro one two link
      obtain ⟨oneBound, twoBound⟩ := link.lt_length
      have size : (reorder suggestions order).length = suggestions.length := by
        simp [reorder]
      rw [size] at oneBound twoBound
      have moved := (conflictLink_reorder order ⟨one, oneBound⟩ ⟨two, twoBound⟩).mp link
      rwa [← onPositions_val, ← onPositions_val] at moved
    have lifted := Relation.TransGen.lift (onPositions order) moves _ _ chain
    rwa [Function.onFun, onPositions_val, onPositions_val] at lifted
  · intro chain
    have moves : ∀ one two, ConflictLink env headMap adjacency suggestions one two →
        ConflictLink env headMap adjacency (reorder suggestions order)
          (onPositions order.symm one) (onPositions order.symm two) := by
      intro one two link
      obtain ⟨oneBound, twoBound⟩ := link.lt_length
      have moved := (conflictLink_reorder order (order.symm ⟨one, oneBound⟩)
        (order.symm ⟨two, twoBound⟩)).mpr (by simpa using link)
      rwa [← onPositions_val, ← onPositions_val] at moved
    have lifted := Relation.TransGen.lift (onPositions order.symm) moves _ _ chain
    rwa [Function.onFun, onPositions_val, onPositions_val, Equiv.symm_apply_apply,
      Equiv.symm_apply_apply] at lifted

/-- The groups are the connected components of size two and more of the conflicts within one file,
whatever the order of the suggestions. -/
theorem detect_conflict_groups_are_components
    (env : WordEnv)
    (headMap : HeadMap)
    (adjacency : Int)
    (suggestions : List FixSuggestion) :
    let groups := env.detectConflictGroups headMap adjacency suggestions
    (∀ first second, (∃ group ∈ groups, first ∈ group ∧ second ∈ group) ↔
      Relation.TransGen (ConflictLink env headMap adjacency suggestions) first second) ∧
    groups.Pairwise List.Disjoint ∧
    (∀ group ∈ groups, 2 ≤ group.length ∧ group.Pairwise (· < ·)) ∧
    (groups.Pairwise fun first second => first.headD 0 < second.headD 0) ∧
    ∀ (order : Equiv.Perm (Fin suggestions.length)) (first second : Fin suggestions.length),
      (∃ group ∈ env.detectConflictGroups headMap adjacency (reorder suggestions order),
        first.val ∈ group ∧ second.val ∈ group) ↔
      ∃ group ∈ groups, (order first).val ∈ group ∧ (order second).val ∈ group := by
  have components : Components (ConflictLink env headMap adjacency suggestions)
      (env.detectConflictGroups headMap adjacency suggestions) :=
    components_detectConflictGroups
  refine ⟨components.shared, components.disjoint,
    fun group member => ⟨components.sizes group member, components.sorted group member⟩,
    pairwise_head_detectConflictGroups, fun order first second => ?_⟩
  rw [components_detectConflictGroups.shared, components.shared]
  exact transGen_conflictLink_reorder env headMap adjacency suggestions order first second

end MrAgent
