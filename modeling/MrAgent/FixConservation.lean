import MrAgent.DeterministicFix

namespace MrAgent

/-!
# What becomes of a suggestion

Every piece of a suggestion is resolved or member of one task. A suggestion that
was split has two pieces, and the conflicts of its pieces decide where each of
them goes: nothing keeps the halves together.
-/

/-! ## Pieces -/

namespace FixEnv

variable (env : FixEnv) (headMap : HeadMap) (threshold : Rat) (adjacency : Int)

/-- What one suggestion becomes. -/
def piecesOf (suggestion : FixSuggestion) : List FixSuggestion :=
  (env.fixOne headMap threshold suggestion).1 ++
    ((env.fixOne headMap threshold suggestion).2.map (·.members)).getD []

theorem fixOne_cases (suggestion : FixSuggestion) :
    (∃ fixed, env.fixOne headMap threshold suggestion = ([fixed], none)) ∨
      (∃ first second, env.fixOne headMap threshold suggestion = ([first, second], none)) ∨
      ∃ task, env.fixOne headMap threshold suggestion = ([], some task) ∧
        task.members = [suggestion] := by
  have inPlace : (∃ fixed, env.fixInPlace headMap suggestion = ([fixed], none)) ∨
      (∃ first second, env.fixInPlace headMap suggestion = ([first, second], none)) ∨
      ∃ task, env.fixInPlace headMap suggestion = ([], some task) ∧
        task.members = [suggestion] := by
    rw [fixInPlace]
    dsimp only
    split
    · split
      · exact Or.inr (Or.inl ⟨_, _, rfl⟩)
      · exact Or.inr (Or.inr ⟨_, rfl, rfl⟩)
    · split
      · split
        · split <;> exact Or.inr (Or.inr ⟨_, rfl, rfl⟩)
        · exact Or.inr (Or.inr ⟨_, rfl, rfl⟩)
      · split
        · exact Or.inr (Or.inr ⟨_, rfl, rfl⟩)
        · exact Or.inl ⟨_, rfl⟩
  rw [fixOne]
  split
  · exact Or.inr (Or.inr ⟨_, rfl, rfl⟩)
  · split
    · split
      · exact Or.inl ⟨_, rfl⟩
      · exact Or.inr (Or.inr ⟨_, rfl, rfl⟩)
    · exact inPlace

end FixEnv

/-! ## Positions -/

theorem perm_filter_append_flatten
    {link : Nat → Nat → Prop}
    {groups : List (List Nat)}
    {size : Nat}
    (components : Components link groups)
    (bounded : ∀ first second, link first second → first < size) :
    ((List.range size).filter (· ∉ groups.flatten) ++ groups.flatten).Perm (List.range size) := by
  have distinct : groups.flatten.Nodup := by
    refine List.nodup_flatten.mpr ⟨?_, components.disjoint⟩
    intro group member
    exact (components.sorted group member).imp fun less => less.ne
  have inside : ∀ position ∈ groups.flatten, position < size := by
    intro position member
    obtain ⟨group, inGroups, inGroup⟩ := List.mem_flatten.mp member
    have chain := (components.shared position position).mp ⟨group, inGroups, inGroup, inGroup⟩
    obtain ⟨next, linked, -⟩ := Relation.TransGen.head'_iff.mp chain
    exact bounded position next linked
  refine (List.perm_ext_iff_of_nodup ?_ List.nodup_range).mpr fun position => ?_
  · refine List.nodup_append.mpr ⟨List.nodup_range.filter _, distinct, ?_⟩
    rintro first left second right rfl
    exact of_decide_eq_true (List.mem_filter.mp left).2 right
  · rw [List.mem_append, List.mem_filter, List.mem_range, decide_eq_true_eq]
    constructor
    · rintro (⟨bound, -⟩ | member)
      · exact bound
      · exact inside position member
    · intro bound
      by_cases member : position ∈ groups.flatten
      · exact Or.inr member
      · exact Or.inl ⟨bound, member⟩

theorem pick_range (items : List FixSuggestion) :
    FixEnv.pick items (List.range items.length) = items := by
  induction items using List.reverseRecOn with
  | nil =>
      rfl
  | append_singleton items item ih =>
      have earlier : (List.range items.length).filterMap ((items ++ [item])[·]?) =
          (List.range items.length).filterMap (items[·]?) := by
        refine List.filterMap_congr fun position member => ?_
        rw [List.getElem?_append_left (List.mem_range.mp member)]
      rw [FixEnv.pick] at ih ⊢
      rw [List.length_append, List.length_singleton, List.range_succ, List.filterMap_append,
        earlier, ih]
      simp

theorem flatMap_pick (items : List FixSuggestion) (groups : List (List Nat)) :
    groups.flatMap (FixEnv.pick items) = FixEnv.pick items groups.flatten := by
  induction groups with
  | nil =>
      rfl
  | cons group rest ih =>
      rw [List.flatMap_cons, ih, List.flatten_cons, FixEnv.pick, FixEnv.pick,
        FixEnv.pick, List.filterMap_append]

theorem mem_pick {items : List FixSuggestion} {positions : List Nat} {item : FixSuggestion} :
    item ∈ FixEnv.pick items positions ↔ ∃ position ∈ positions, items[position]? = some item := by
  simp [FixEnv.pick]

/-! ## Conservation -/

namespace FixEnv

variable {env : FixEnv} {headMap : HeadMap} {threshold : Rat} {adjacency : Int}

theorem takeConflicts_perm (result : FixResult) :
    ((env.takeConflicts headMap adjacency result).resolved ++
        (env.takeConflicts headMap adjacency result).tasks.flatMap (·.members)).Perm
      (result.resolved ++ result.tasks.flatMap (·.members)) := by
  have components : Components (ConflictLink env.toWordEnv headMap adjacency result.resolved)
      (env.detectConflictGroups headMap adjacency result.resolved) :=
    components_detectConflictGroups
  have positions := perm_filter_append_flatten components fun _ _ link => link.lt_length.1
  have items := positions.filterMap (result.resolved[·]?)
  have whole : (List.range result.resolved.length).filterMap (result.resolved[·]?) =
      result.resolved := pick_range result.resolved
  rw [List.filterMap_append, whole] at items
  have members : ((env.detectConflictGroups headMap adjacency result.resolved).map fun group =>
      conflictTask (pick result.resolved group)).flatMap (·.members) =
      pick result.resolved (env.detectConflictGroups headMap adjacency result.resolved).flatten := by
    rw [List.flatMap_map, ← flatMap_pick]
    rfl
  simp only [takeConflicts, List.flatMap_append, members]
  refine (List.perm_append_comm.append_left _).trans ?_
  rw [← List.append_assoc]
  exact items.append_right _

theorem flatMap_members
    (entries : List (FixSuggestion × Nat)) :
    (entries.filterMap fun entry =>
        (env.fixOne headMap threshold entry.1).2.map (·.withOrigin entry.2)).flatMap (·.members) =
      entries.flatMap fun entry =>
        (((env.fixOne headMap threshold entry.1).2.map (·.members)).getD []).map
          (·.withOrigin entry.2) := by
  induction entries with
  | nil =>
      rfl
  | cons entry rest ih =>
      rw [List.flatMap_cons, ← ih, List.filterMap_cons]
      cases (env.fixOne headMap threshold entry.1).2 with
      | none => rfl
      | some task => rfl

theorem fixAll_perm (suggestions : List FixSuggestion) :
    ((env.fixAll headMap threshold suggestions).resolved ++
        (env.fixAll headMap threshold suggestions).tasks.flatMap (·.members)).Perm
      (suggestions.zipIdx.flatMap fun entry =>
        (env.piecesOf headMap threshold entry.1).map (·.withOrigin entry.2)) := by
  rw [fixAll, flatMap_members]
  refine (List.flatMap_append_perm _ _ _).trans (List.Perm.of_eq ?_)
  refine List.flatMap_congr fun entry _ => ?_
  rw [piecesOf, List.map_append]

theorem fixWithOrigins_perm (suggestions : List FixSuggestion) :
    ((env.fixWithOrigins headMap threshold adjacency suggestions).resolved ++
        (env.fixWithOrigins headMap threshold adjacency suggestions).tasks.flatMap
          (·.members)).Perm
      (suggestions.zipIdx.flatMap fun entry =>
        (env.piecesOf headMap threshold entry.1).map (·.withOrigin entry.2)) :=
  (takeConflicts_perm _).trans (fixAll_perm suggestions)

end FixEnv

/-! ## Origins -/

/-- A task has a piece of a suggestion. -/
def FixTask.concerns (origin : Nat) (task : FixTask) : Bool :=
  task.members.any (·.originId = some origin)

/-- All pieces of a suggestion are resolved, or one task has them all. -/
def InOnePlace (result : FixResult) (origin : Nat) : Prop :=
  ((∃ item ∈ result.resolved, item.originId = some origin) ∧
      ∀ task ∈ result.tasks, task.concerns origin = false) ∨
    ((∀ item ∈ result.resolved, item.originId ≠ some origin) ∧
      result.tasks.countP (·.concerns origin) = 1)

instance (result : FixResult) (origin : Nat) : Decidable (InOnePlace result origin) :=
  inferInstanceAs (Decidable ((_ ∧ _) ∨ _ ∧ _))

/-- The piece at a position comes from a suggestion. -/
def OriginAt (items : List FixSuggestion) (origin position : Nat) : Prop :=
  ∃ item, items[position]? = some item ∧ item.originId = some origin

theorem countP_zipIdx
    {α : Type}
    (items : List α)
    (select : α → Bool)
    (index : Nat) :
    (items.zipIdx.countP fun entry => decide (entry.2 = index) && select entry.1) =
      if (items[index]?).any select then 1 else 0 := by
  induction items using List.reverseRecOn with
  | nil =>
      rfl
  | append_singleton items item ih =>
      rw [List.zipIdx_append, List.countP_append, ih, List.zipIdx_singleton,
        List.countP_singleton, Nat.zero_add]
      rcases Nat.lt_trichotomy index items.length with before | rfl | behind
      · rw [List.getElem?_append_left before]
        simp [before.ne']
      · simp
      · have outside : (items ++ [item])[index]? = none := by
          rw [List.getElem?_eq_none_iff, List.length_append, List.length_singleton]
          omega
        rw [outside, List.getElem?_eq_none_iff.mpr behind.le]
        simp [behind.ne]

section Groups

variable {link : Nat → Nat → Prop} {groups : List (List Nat)} {items : List FixSuggestion}
  {origin : Nat}

variable {position : Nat}

theorem Components.mem_flatten
    (components : Components link groups) :
    position ∈ groups.flatten ↔ ∃ other, link position other := by
  rw [List.mem_flatten]
  constructor
  · rintro ⟨group, inGroups, inGroup⟩
    have chain := (components.shared position position).mp ⟨group, inGroups, inGroup, inGroup⟩
    obtain ⟨next, linked, -⟩ := Relation.TransGen.head'_iff.mp chain
    exact ⟨next, linked⟩
  · rintro ⟨other, linked⟩
    obtain ⟨group, inGroups, inGroup, -⟩ :=
      (components.shared position other).mpr (Relation.TransGen.single linked)
    exact ⟨group, inGroups, inGroup⟩

theorem Components.unique
    (components : Components link groups)
    {first second : List Nat}
    (inFirst : first ∈ groups)
    (inSecond : second ∈ groups)
    (left : position ∈ first)
    (right : position ∈ second) :
    first = second := by
  have symm : Std.Symm (List.Disjoint (α := Nat)) := ⟨fun _ _ => List.Disjoint.symm⟩
  by_contra distinct
  exact components.disjoint.forall inFirst inSecond distinct left right

theorem concerns_conflictTask {group : List Nat} :
    (FixEnv.conflictTask (FixEnv.pick items group)).concerns origin = true ↔
      ∃ position ∈ group, OriginAt items origin position := by
  simp only [FixTask.concerns, FixEnv.conflictTask, List.any_eq_true, mem_pick,
    decide_eq_true_eq, OriginAt]
  constructor
  · rintro ⟨item, ⟨position, inGroup, found⟩, own⟩
    exact ⟨position, inGroup, item, found, own⟩
  · rintro ⟨position, inGroup, item, found, own⟩
    exact ⟨item, ⟨position, inGroup, found⟩, own⟩

theorem countP_groups_eq_one_iff
    (components : Components link groups)
    (exists_piece : ∃ position, OriginAt items origin position)
    (linked : ∀ position, OriginAt items origin position → position ∈ groups.flatten) :
    groups.countP (fun group =>
        (FixEnv.conflictTask (FixEnv.pick items group)).concerns origin) = 1 ↔
      ∃ group ∈ groups, ∀ position, OriginAt items origin position → position ∈ group := by
  obtain ⟨start, origin_start⟩ := exists_piece
  constructor
  · intro once
    obtain ⟨group, inGroups, inGroup⟩ := List.mem_flatten.mp (linked start origin_start)
    refine ⟨group, inGroups, fun position own => ?_⟩
    obtain ⟨other, inOthers, inOther⟩ := List.mem_flatten.mp (linked position own)
    rw [List.countP_eq_length_filter, List.length_eq_one_iff] at once
    obtain ⟨only, filtered⟩ := once
    have isOnly : ∀ one ∈ groups, ∀ index ∈ one, OriginAt items origin index → one = only := by
      intro one member index inside at_index
      have kept : one ∈ groups.filter fun group =>
          (FixEnv.conflictTask (FixEnv.pick items group)).concerns origin :=
        List.mem_filter.mpr ⟨member, concerns_conflictTask.mpr ⟨index, inside, at_index⟩⟩
      rw [filtered] at kept
      exact List.mem_singleton.mp kept
    rw [isOnly group inGroups start inGroup origin_start,
      ← isOnly other inOthers position inOther own]
    exact inOther
  · rintro ⟨group, inGroups, every⟩
    have distinct : groups.Nodup := by
      refine components.disjoint.imp_of_mem ?_
      rintro one other member - disjoint rfl
      have size := components.sizes one member
      obtain ⟨head, rest, rfl⟩ := List.exists_cons_of_length_pos (by omega : 0 < one.length)
      exact disjoint List.mem_cons_self List.mem_cons_self
    have same : groups.countP (fun other =>
        (FixEnv.conflictTask (FixEnv.pick items other)).concerns origin) =
        groups.countP (· == group) := by
      refine List.countP_congr fun other member => ?_
      rw [concerns_conflictTask, beq_iff_eq]
      constructor
      · rintro ⟨position, inOther, own⟩
        exact components.unique member inGroups inOther (every position own)
      · rintro rfl
        exact ⟨start, every start origin_start, origin_start⟩
    rw [same]
    exact List.count_eq_one_of_mem distinct inGroups

end Groups

/-! ## Halves -/

namespace FixEnv

variable (env : FixEnv) (headMap : HeadMap) (threshold : Rat) (adjacency : Int)

/-- The conflicts of the repaired pieces. -/
def PieceLink (suggestions : List FixSuggestion) : Nat → Nat → Prop :=
  ConflictLink env.toWordEnv headMap adjacency (env.fixAll headMap threshold suggestions).resolved

/-- The halves of a suggestion both have no conflict, or a chain of conflicts links them. -/
def HalvesTogether (suggestions : List FixSuggestion) : Prop :=
  ∀ first second a b,
    (env.fixAll headMap threshold suggestions).resolved[first]? = some a →
    (env.fixAll headMap threshold suggestions).resolved[second]? = some b →
    a.originId = b.originId → first ≠ second →
    ((∀ other, ¬env.PieceLink headMap threshold adjacency suggestions first other) ∧
        ∀ other, ¬env.PieceLink headMap threshold adjacency suggestions second other) ∨
      Relation.TransGen (env.PieceLink headMap threshold adjacency suggestions) first second

/-- Every suggestion comes out, in one place, and nothing is lost or doubled. -/
structure ConservesSuggestions (suggestions : List FixSuggestion) : Prop where
  pieces : ∀ suggestion ∈ suggestions, env.piecesOf headMap threshold suggestion ≠ []
  placed :
    ((env.fixWithOrigins headMap threshold adjacency suggestions).resolved ++
        (env.fixWithOrigins headMap threshold adjacency suggestions).tasks.flatMap
          (·.members)).Perm
      (suggestions.zipIdx.flatMap fun entry =>
        (env.piecesOf headMap threshold entry.1).map (·.withOrigin entry.2))
  inOnePlace : ∀ origin < suggestions.length,
    InOnePlace (env.fixWithOrigins headMap threshold adjacency suggestions) origin

section Places

variable {env headMap threshold adjacency} {suggestions : List FixSuggestion} {origin : Nat}

theorem exists_originAt_iff :
    (∃ position, OriginAt (env.fixAll headMap threshold suggestions).resolved origin position) ↔
      ∃ suggestion, suggestions[origin]? = some suggestion ∧
        (env.fixOne headMap threshold suggestion).1 ≠ [] := by
  constructor
  · rintro ⟨position, item, found, own⟩
    have member := List.mem_of_getElem? found
    simp only [fixAll, List.mem_flatMap, List.mem_map] at member
    obtain ⟨entry, inEntries, piece, inPieces, rfl⟩ := member
    have same : entry.2 = origin := Option.some.inj own
    refine ⟨entry.1, ?_, List.ne_nil_of_mem inPieces⟩
    rw [← same]
    exact List.mem_zipIdx_iff_getElem?.mp inEntries
  · rintro ⟨suggestion, found, fixed⟩
    obtain ⟨piece, inPieces⟩ := List.exists_mem_of_ne_nil _ fixed
    have member : piece.withOrigin origin ∈
        (env.fixAll headMap threshold suggestions).resolved := by
      simp only [fixAll, List.mem_flatMap, List.mem_map]
      exact ⟨(suggestion, origin), List.mem_zipIdx_iff_getElem?.mpr found, piece, inPieces, rfl⟩
    obtain ⟨position, at_position⟩ := List.mem_iff_getElem?.mp member
    exact ⟨position, _, at_position, rfl⟩

theorem countP_fixAll_tasks :
    (env.fixAll headMap threshold suggestions).tasks.countP (·.concerns origin) =
      if (suggestions[origin]?).any fun suggestion =>
        (env.fixOne headMap threshold suggestion).2.isSome then 1 else 0 := by
  rw [← countP_zipIdx, fixAll, List.countP_filterMap]
  refine List.countP_congr fun entry _ => ?_
  rcases env.fixOne_cases headMap threshold entry.1 with
    ⟨fixed, same⟩ | ⟨first, second, same⟩ | ⟨task, same, members⟩
  · simp [same]
  · simp [same]
  · simp [same, FixTask.concerns, FixTask.withOrigin, members, FixSuggestion.withOrigin]

theorem countP_tasks :
    (env.fixWithOrigins headMap threshold adjacency suggestions).tasks.countP
        (·.concerns origin) =
      (env.fixAll headMap threshold suggestions).tasks.countP (·.concerns origin) +
        (env.detectConflictGroups headMap adjacency
          (env.fixAll headMap threshold suggestions).resolved).countP fun group =>
            (conflictTask (pick (env.fixAll headMap threshold suggestions).resolved group)).concerns
              origin := by
  rw [fixWithOrigins, takeConflicts, List.countP_append, List.countP_map]
  rfl

theorem exists_resolved_iff :
    (∃ item ∈ (env.fixWithOrigins headMap threshold adjacency suggestions).resolved,
        item.originId = some origin) ↔
      ∃ position, OriginAt (env.fixAll headMap threshold suggestions).resolved origin position ∧
        ∀ other, ¬env.PieceLink headMap threshold adjacency suggestions position other := by
  have components : Components (env.PieceLink headMap threshold adjacency suggestions)
      (env.detectConflictGroups headMap adjacency
        (env.fixAll headMap threshold suggestions).resolved) :=
    components_detectConflictGroups
  simp only [fixWithOrigins, takeConflicts, mem_pick, List.mem_filter, List.mem_range,
    decide_eq_true_eq, components.mem_flatten, not_exists]
  constructor
  · rintro ⟨item, ⟨position, ⟨-, free⟩, found⟩, own⟩
    exact ⟨position, ⟨item, found, own⟩, free⟩
  · rintro ⟨position, ⟨item, found, own⟩, free⟩
    exact ⟨item, ⟨position, ⟨(List.getElem?_eq_some_iff.mp found).1, free⟩, found⟩, own⟩

variable {suggestion : FixSuggestion}

theorem inOnePlace_of_task
    (found : suggestions[origin]? = some suggestion)
    {task : FixTask}
    (unfixed : env.fixOne headMap threshold suggestion = ([], some task)) :
    InOnePlace (env.fixWithOrigins headMap threshold adjacency suggestions) origin := by
  have none : ∀ position,
      ¬OriginAt (env.fixAll headMap threshold suggestions).resolved origin position := by
    intro position own
    obtain ⟨other, again, fixed⟩ := exists_originAt_iff.mp ⟨position, own⟩
    rw [found] at again
    rw [← Option.some.inj again, unfixed] at fixed
    exact fixed rfl
  refine Or.inr ⟨fun item member own => ?_, ?_⟩
  · obtain ⟨position, own, -⟩ := exists_resolved_iff.mp ⟨item, member, own⟩
    exact none position own
  · have noGroup : (env.detectConflictGroups headMap adjacency
        (env.fixAll headMap threshold suggestions).resolved).countP (fun group =>
          (conflictTask (pick (env.fixAll headMap threshold suggestions).resolved group)).concerns
            origin) = 0 := by
      refine List.countP_eq_zero.mpr fun group _ concerned => ?_
      obtain ⟨position, -, own⟩ := concerns_conflictTask.mp concerned
      exact none position own
    rw [countP_tasks, noGroup, countP_fixAll_tasks, found]
    simp [unfixed]

theorem inOnePlace_of_fixed_iff
    (found : suggestions[origin]? = some suggestion)
    (fixed : (env.fixOne headMap threshold suggestion).1 ≠ [])
    (noTask : (env.fixOne headMap threshold suggestion).2 = none) :
    InOnePlace (env.fixWithOrigins headMap threshold adjacency suggestions) origin ↔
      (∀ position, OriginAt (env.fixAll headMap threshold suggestions).resolved origin position →
        ∀ other, ¬env.PieceLink headMap threshold adjacency suggestions position other) ∨
      ∃ group ∈ env.detectConflictGroups headMap adjacency
          (env.fixAll headMap threshold suggestions).resolved,
        ∀ position, OriginAt (env.fixAll headMap threshold suggestions).resolved origin position →
          position ∈ group := by
  have components : Components (env.PieceLink headMap threshold adjacency suggestions)
      (env.detectConflictGroups headMap adjacency
        (env.fixAll headMap threshold suggestions).resolved) :=
    components_detectConflictGroups
  have pieces := exists_originAt_iff.mpr ⟨suggestion, found, fixed⟩
  have firstLoop : (env.fixAll headMap threshold suggestions).tasks.countP
      (·.concerns origin) = 0 := by
    rw [countP_fixAll_tasks, found]
    simp [noTask]
  constructor
  · rintro (⟨-, noTasks⟩ | ⟨noResolved, once⟩)
    · left
      intro position own other link
      obtain ⟨group, inGroups, inGroup⟩ :=
        List.mem_flatten.mp (components.mem_flatten.mpr ⟨other, link⟩)
      have concerned := concerns_conflictTask.mpr ⟨position, inGroup, own⟩
      have member : conflictTask (pick (env.fixAll headMap threshold suggestions).resolved group) ∈
          (env.fixWithOrigins headMap threshold adjacency suggestions).tasks :=
        List.mem_append_right _ (List.mem_map.mpr ⟨group, inGroups, rfl⟩)
      exact Bool.false_ne_true ((noTasks _ member).symm.trans concerned)
    · right
      have linked : ∀ position,
          OriginAt (env.fixAll headMap threshold suggestions).resolved origin position →
          position ∈ (env.detectConflictGroups headMap adjacency
            (env.fixAll headMap threshold suggestions).resolved).flatten := by
        intro position own
        by_contra free
        rw [components.mem_flatten, not_exists] at free
        obtain ⟨item, member, same⟩ := exists_resolved_iff.mpr ⟨position, own, free⟩
        exact noResolved item member same
      rw [countP_tasks, firstLoop, Nat.zero_add] at once
      exact (countP_groups_eq_one_iff components pieces linked).mp once
  · rintro (free | ⟨group, inGroups, every⟩)
    · left
      obtain ⟨position, own⟩ := pieces
      refine ⟨exists_resolved_iff.mpr ⟨position, own, free position own⟩, ?_⟩
      have noTasks : (env.fixWithOrigins headMap threshold adjacency suggestions).tasks.countP
          (·.concerns origin) = 0 := by
        rw [countP_tasks, firstLoop, Nat.zero_add]
        refine List.countP_eq_zero.mpr fun group inGroups concerned => ?_
        obtain ⟨position, inGroup, own⟩ := concerns_conflictTask.mp concerned
        obtain ⟨other, link⟩ :=
          components.mem_flatten.mp (List.mem_flatten.mpr ⟨group, inGroups, inGroup⟩)
        exact free position own other link
      simpa [List.countP_eq_zero] using noTasks
    · right
      have linked : ∀ position,
          OriginAt (env.fixAll headMap threshold suggestions).resolved origin position →
          position ∈ (env.detectConflictGroups headMap adjacency
            (env.fixAll headMap threshold suggestions).resolved).flatten :=
        fun position own => List.mem_flatten.mpr ⟨group, inGroups, every position own⟩
      refine ⟨fun item member same => ?_, ?_⟩
      · obtain ⟨position, own, free⟩ := exists_resolved_iff.mp ⟨item, member, same⟩
        obtain ⟨other, link⟩ := components.mem_flatten.mp (linked position own)
        exact free other link
      · rw [countP_tasks, firstLoop, Nat.zero_add]
        exact (countP_groups_eq_one_iff components pieces linked).mpr ⟨group, inGroups, every⟩

end Places

theorem exists_origin
    {suggestions : List FixSuggestion}
    {position : Nat}
    {item : FixSuggestion}
    (found : (env.fixAll headMap threshold suggestions).resolved[position]? = some item) :
    ∃ origin, item.originId = some origin := by
  have member := List.mem_of_getElem? found
  simp only [fixAll, List.mem_flatMap, List.mem_map] at member
  obtain ⟨entry, -, piece, -, rfl⟩ := member
  exact ⟨entry.2, rfl⟩

theorem noTask_of_fixed
    {suggestion : FixSuggestion}
    (fixed : (env.fixOne headMap threshold suggestion).1 ≠ []) :
    (env.fixOne headMap threshold suggestion).2 = none := by
  rcases env.fixOne_cases headMap threshold suggestion with
    ⟨only, shape⟩ | ⟨one, two, shape⟩ | ⟨task, shape, -⟩
  · rw [shape]
  · rw [shape]
  · rw [shape] at fixed
    exact absurd rfl fixed

/--
The run keeps every suggestion in one place exactly where the halves of each
split suggestion have no conflict or are linked by a chain of conflicts.
-/
theorem deterministic_fix_conserves_iff (suggestions : List FixSuggestion) :
    env.ConservesSuggestions headMap threshold adjacency suggestions ↔
      env.HalvesTogether headMap threshold adjacency suggestions := by
  have components : Components (env.PieceLink headMap threshold adjacency suggestions)
      (env.detectConflictGroups headMap adjacency
        (env.fixAll headMap threshold suggestions).resolved) :=
    components_detectConflictGroups
  constructor
  · intro conserves first second a b foundFirst foundSecond same distinct
    obtain ⟨origin, own⟩ := env.exists_origin headMap threshold foundFirst
    have atFirst : OriginAt (env.fixAll headMap threshold suggestions).resolved origin first :=
      ⟨a, foundFirst, own⟩
    have atSecond : OriginAt (env.fixAll headMap threshold suggestions).resolved origin second :=
      ⟨b, foundSecond, same ▸ own⟩
    obtain ⟨suggestion, found, fixed⟩ := exists_originAt_iff.mp ⟨first, atFirst⟩
    have place := conserves.inOnePlace origin (List.getElem?_eq_some_iff.mp found).1
    rcases (inOnePlace_of_fixed_iff found fixed
        (env.noTask_of_fixed headMap threshold fixed)).mp place with free | ⟨group, inGroups, every⟩
    · exact Or.inl ⟨free first atFirst, free second atSecond⟩
    · exact Or.inr ((components.shared first second).mp
        ⟨group, inGroups, every first atFirst, every second atSecond⟩)
  · intro together
    refine ⟨?_, fixWithOrigins_perm suggestions, ?_⟩
    · intro suggestion _
      rcases env.fixOne_cases headMap threshold suggestion with
        ⟨fixed, shape⟩ | ⟨one, two, shape⟩ | ⟨task, shape, members⟩
      · simp [piecesOf, shape]
      · simp [piecesOf, shape]
      · simp [piecesOf, shape, members]
    · intro origin bound
      have found := List.getElem?_eq_getElem bound
      by_cases fixed : (env.fixOne headMap threshold suggestions[origin]).1 = []
      · rcases env.fixOne_cases headMap threshold suggestions[origin] with
          ⟨only, shape⟩ | ⟨one, two, shape⟩ | ⟨task, shape, -⟩
        · simp [shape] at fixed
        · simp [shape] at fixed
        · exact inOnePlace_of_task found shape
      · refine (inOnePlace_of_fixed_iff found fixed
          (env.noTask_of_fixed headMap threshold fixed)).mpr ?_
        by_cases free : ∀ position,
            OriginAt (env.fixAll headMap threshold suggestions).resolved origin position →
            ∀ other, ¬env.PieceLink headMap threshold adjacency suggestions position other
        · exact Or.inl free
        · push Not at free
          obtain ⟨start, atStart, other, link⟩ := free
          obtain ⟨group, inGroups, inGroup⟩ :=
            List.mem_flatten.mp (components.mem_flatten.mpr ⟨other, link⟩)
          refine Or.inr ⟨group, inGroups, fun position atPosition => ?_⟩
          by_cases same : start = position
          · exact same ▸ inGroup
          · obtain ⟨a, foundStart, ownStart⟩ := atStart
            obtain ⟨b, foundPosition, ownPosition⟩ := atPosition
            -- A start with a link leaves only the chain to the other half.
            rcases together start position a b foundStart foundPosition
                (ownStart.trans ownPosition.symm) same with ⟨unlinked, -⟩ | chain
            · exact absurd link (unlinked other)
            · obtain ⟨shared, inShared, startShared, positionShared⟩ :=
                (components.shared start position).mpr chain
              rw [components.unique inGroups inShared inGroup startShared]
              exact positionShared

end FixEnv

/-! ## Separated halves -/

/-- Only ASCII words, and no window that is similar. -/
def plainFixEnv : FixEnv where
  foreignWord := fun _ => false
  ratio := fun _ _ => 0
  failure := fun _ => none

/-- A file of nine lines that starts with an include. -/
def includingFile : HeadMap :=
  [("f.c".toList, "#include <a>\n2\n3\n4\n5\n6\n7\n8\n9")]

/-- A change of line 8 that needs a new include, and a change of line 9. -/
def neighbouringChanges : List FixSuggestion :=
  [{ relevantFile := "f.c", linesStart := some 8, linesEnd := some 8, existingCode := "8",
     improvedCode := "#include <b>\ny", structuralIssue := "new_dependency" },
   { relevantFile := "f.c", linesStart := some 9, linesEnd := some 9, existingCode := "9",
     improvedCode := "z" }]

/-- The include of a change is resolved while the change itself is left in a conflict. -/
theorem halves_are_separated :
    ((plainFixEnv.runDeterministicFix includingFile (17 / 20) 3 neighbouringChanges).resolved.map
        (·.improvedCode) = ["#include <a>\n#include <b>"] ∧
      (plainFixEnv.runDeterministicFix includingFile (17 / 20) 3 neighbouringChanges).tasks.map
        (fun task => (task.structuralIssue, task.members.map (·.improvedCode))) =
          [("conflict", ["y", "z"])]) ∧
      ¬plainFixEnv.ConservesSuggestions includingFile (17 / 20) 3 neighbouringChanges := by
  refine ⟨by decide +kernel, fun conserves => ?_⟩
  have separated : ¬InOnePlace (plainFixEnv.fixWithOrigins includingFile (17 / 20) 3
      neighbouringChanges) 0 := by
    decide +kernel
  exact separated (conserves.inOnePlace 0 (by decide))

end MrAgent
