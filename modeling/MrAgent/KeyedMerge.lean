import Mathlib

namespace KeyedMerge

/-!
# Entries merged by key

Updates are merged into a list of entries one after the other: an update whose
key an entry has is merged into it, any other update becomes a new entry at the
end. The laws of the whole list follow from what one merge does to an entry.
-/

/-! ## Merging twice -/

section Replay

variable {α β : Type}

/-- Updates that are done a second time change nothing. -/
def Replayable (merge : α → β → α) : Prop :=
  ∀ (entry : α) (updates : List β),
    updates.foldl merge (updates.foldl merge entry) = updates.foldl merge entry

theorem foldl_overwrite (pick : β → Option α) (entry : α) (updates : List β) :
    updates.foldl (fun entry update => (pick update).getD entry) entry =
      ((updates.filterMap pick).getLast?).getD entry := by
  induction updates generalizing entry with
  | nil =>
      rfl
  | cons update rest ih =>
      rw [List.foldl_cons, ih, List.filterMap_cons]
      cases pick update with
      | none =>
          rfl
      | some value =>
          cases rest.filterMap pick with
          | nil =>
              rfl
          | cons next later =>
              simp [List.getLast?_cons]

theorem replayable_overwrite (pick : β → Option α) :
    Replayable fun entry update => (pick update).getD entry := by
  intro entry updates
  rw [foldl_overwrite, foldl_overwrite]
  cases (updates.filterMap pick).getLast? with
  | none =>
      rfl
  | some value =>
      rfl

theorem replayable_of_settled
    {merge : α → β → α}
    (Settled : β → α → Prop)
    (settles : ∀ entry update, Settled update (merge entry update))
    (stays : ∀ entry update other, Settled update entry → Settled update (merge entry other))
    (still : ∀ entry update, Settled update entry → merge entry update = entry) :
    Replayable merge := by
  have kept : ∀ (updates : List β) (entry : α) (update : β),
      Settled update entry → Settled update (updates.foldl merge entry) := by
    intro updates
    induction updates with
    | nil =>
        exact fun entry update settled => settled
    | cons other rest ih =>
        exact fun entry update settled =>
          ih _ update (stays entry update other settled)
  have all : ∀ (updates : List β) (entry : α),
      ∀ update ∈ updates, Settled update (updates.foldl merge entry) := by
    intro updates
    induction updates with
    | nil =>
        exact fun entry update member => nomatch member
    | cons first rest ih =>
        intro entry update member
        rcases List.mem_cons.mp member with rfl | later
        · exact kept rest _ update (settles entry update)
        · exact ih _ update later
  have unchanged : ∀ (updates : List β) (entry : α),
      (∀ update ∈ updates, Settled update entry) → updates.foldl merge entry = entry := by
    intro updates
    induction updates with
    | nil =>
        exact fun entry _ => rfl
    | cons first rest ih =>
        intro entry settled
        rw [List.foldl_cons, still entry first (settled first List.mem_cons_self)]
        exact ih entry fun update later =>
          settled update (List.mem_cons_of_mem first later)
  intro entry updates
  exact unchanged updates _ (all updates entry)

theorem foldl_field
    {γ : Type}
    {merge : α → β → α}
    {own : γ → β → γ}
    (field : α → γ)
    (separate : ∀ entry update, field (merge entry update) = own (field entry) update)
    (entry : α)
    (updates : List β) :
    field (updates.foldl merge entry) = updates.foldl own (field entry) := by
  induction updates generalizing entry with
  | nil =>
      rfl
  | cons update rest ih =>
      rw [List.foldl_cons, List.foldl_cons, ih, separate]

theorem field_replayed
    {γ : Type}
    {merge : α → β → α}
    {field : α → γ}
    (own : γ → β → γ)
    (separate : ∀ entry update, field (merge entry update) = own (field entry) update)
    (replayable : Replayable own)
    (entry : α)
    (updates : List β) :
    field (updates.foldl merge (updates.foldl merge entry)) =
      field (updates.foldl merge entry) := by
  rw [foldl_field field separate, foldl_field field separate, replayable]

end Replay

/-! ## The list -/

variable {α κ : Type} [DecidableEq κ] (key : α → Option κ) (merge : α → α → α)

/-- Some entry has the key. -/
def Present (entries : List α) (k : κ) : Prop :=
  ∃ entry ∈ entries, key entry = some k

instance (entries : List α) (k : κ) : Decidable (Present key entries k) :=
  inferInstanceAs (Decidable (∃ entry ∈ entries, key entry = some k))

/-- The update is merged into the entry if it is the entry's. -/
def mergeInto (k : κ) (update entry : α) : α :=
  if key entry = some k then merge entry update else entry

/-- One update. -/
def step (entries : List α) (update : α) : List α :=
  match key update with
  | none => entries ++ [update]
  | some k =>
    if Present key entries k then entries.map (mergeInto key merge k update)
    else entries ++ [update]

/-- All updates. -/
def mergeAll (entries updates : List α) : List α :=
  updates.foldl (step key merge) entries

theorem map_mergeInto_eq_set
    {key : α → Option κ}
    {entries : List α}
    {entry : α}
    {index : Nat}
    {k : κ}
    (update : α)
    (merge : α → α → α)
    (distinct : (entries.filterMap key).Nodup)
    (found : entries[index]? = some entry)
    (own : key entry = some k) :
    entries.map (mergeInto key merge k update) = entries.set index (merge entry update) := by
  induction entries generalizing index with
  | nil =>
      cases found
  | cons first rest ih =>
      cases index with
      | zero =>
          obtain rfl : first = entry := by
            simpa using found
          rw [List.filterMap_cons_some own, List.nodup_cons] at distinct
          have others : ∀ other ∈ rest, mergeInto key merge k update other = other := by
            intro other member
            unfold mergeInto
            split
            · rename_i same
              exact absurd (List.mem_filterMap.mpr ⟨other, member, same⟩) distinct.1
            · rfl
          rw [List.map_cons, List.set_cons_zero, List.map_congr_left others, List.map_id',
            mergeInto, if_pos own]
      | succ index =>
          rw [List.getElem?_cons_succ] at found
          have inside : k ∈ rest.filterMap key :=
            List.mem_filterMap.mpr ⟨entry, List.mem_of_getElem? found, own⟩
          have tail : (rest.filterMap key).Nodup := by
            refine distinct.sublist ?_
            rw [List.filterMap_cons]
            split
            · exact List.Sublist.refl _
            · exact List.sublist_cons_self _ _
          have different : key first ≠ some k := by
            intro same
            rw [List.filterMap_cons_some same, List.nodup_cons] at distinct
            exact distinct.1 inside
          rw [List.map_cons, List.set_cons_succ, ih tail found, mergeInto,
            if_neg different]

/-- What one merge does to entries and updates that meet some condition. -/
structure Laws (Entry Update : α → Prop) : Prop where
  enters : ∀ update, Update update → Entry update
  keeps : ∀ entry update k, Entry entry → Update update →
    key entry = some k → key update = some k →
    Entry (merge entry update) ∧ key (merge entry update) = some k

variable {key merge} {Entry Update : α → Prop} {entries updates : List α} {update : α}

section

variable (laws : Laws key merge Entry Update)

include laws

variable {k : κ}

theorem key_mergeInto
    {entry : α}
    (good : Entry entry)
    (fine : Update update)
    (named : key update = some k) :
    key (mergeInto key merge k update entry) = key entry := by
  unfold mergeInto
  split
  · rename_i own
    rw [own]
    exact (laws.keeps entry update k good fine own named).2
  · rfl

theorem step_keys
    (good : ∀ entry ∈ entries, Entry entry)
    (fine : Update update) :
    ((step key merge entries update).map key = entries.map key ∧
      ∃ k, key update = some k ∧ Present key entries k) ∨
      ((step key merge entries update).map key = entries.map key ++ [key update] ∧
        ∀ k, key update = some k → ¬Present key entries k) := by
  unfold step
  cases named : key update with
  | none =>
      refine Or.inr ⟨by simp [named], nofun⟩
  | some k =>
      by_cases present : Present key entries k
      · refine Or.inl ⟨?_, k, rfl, present⟩
        simp only [if_pos present, List.map_map]
        apply List.map_congr_left
        intro entry member
        exact key_mergeInto laws (good entry member) fine named
      · refine Or.inr ⟨by simp [present, named], ?_⟩
        rintro other ⟨⟩
        exact present

theorem step_good
    (good : ∀ entry ∈ entries, Entry entry)
    (fine : Update update) :
    ∀ entry ∈ step key merge entries update, Entry entry := by
  intro entry member
  have appended : entry ∈ entries ++ [update] → Entry entry := by
    intro inside
    rcases List.mem_append.mp inside with old | last
    · exact good entry old
    · rw [List.mem_singleton.mp last]
      exact laws.enters update fine
  unfold step at member
  split at member
  · exact appended member
  · rename_i k named
    split at member
    · obtain ⟨old, inside, rfl⟩ := List.mem_map.mp member
      unfold mergeInto
      split
      · rename_i own
        exact (laws.keeps old update k (good old inside) fine own named).1
      · exact good old inside
    · exact appended member

theorem keys_kept
    (good : ∀ entry ∈ entries, Entry entry)
    (fine : ∀ update ∈ updates, Update update) :
    entries.map key <+: (mergeAll key merge entries updates).map key := by
  induction updates generalizing entries with
  | nil =>
      exact List.prefix_rfl
  | cons update rest ih =>
      have first := fine update List.mem_cons_self
      have later := ih (step_good laws good first)
        fun other member => fine other (List.mem_cons_of_mem update member)
      rcases step_keys laws good first with ⟨same, _⟩ | ⟨longer, _⟩
      · rw [same] at later
        exact later
      · rw [longer] at later
        exact (List.prefix_append _ _).trans later

theorem keys_distinct
    (good : ∀ entry ∈ entries, Entry entry)
    (fine : ∀ update ∈ updates, Update update)
    (distinct : (entries.filterMap key).Nodup) :
    ((mergeAll key merge entries updates).filterMap key).Nodup := by
  induction updates generalizing entries with
  | nil =>
      exact distinct
  | cons update rest ih =>
      have first := fine update List.mem_cons_self
      apply ih (step_good laws good first)
        fun other member => fine other (List.mem_cons_of_mem update member)
      have listed : ∀ list : List α, list.filterMap key = (list.map key).filterMap id := by
        intro list
        rw [List.filterMap_map]
        rfl
      rcases step_keys laws good first with ⟨same, _⟩ | ⟨longer, absent⟩
      · rw [listed, same, ← listed]
        exact distinct
      · rw [listed, longer, List.filterMap_append, ← listed]
        cases named : key update with
        | none =>
            simpa using distinct
        | some k =>
            have fresh : k ∉ entries.filterMap key := by
              intro member
              obtain ⟨entry, inside, own⟩ := List.mem_filterMap.mp member
              exact absent k named ⟨entry, inside, own⟩
            rw [List.nodup_append]
            refine ⟨distinct, List.nodup_singleton k, ?_⟩
            rintro other member last single rfl
            have equal : other = k := by
              simpa using single
            exact fresh (equal ▸ member)

theorem present_mono
    (good : ∀ entry ∈ entries, Entry entry)
    (fine : ∀ update ∈ updates, Update update)
    (present : Present key entries k) :
    Present key (mergeAll key merge entries updates) k := by
  obtain ⟨entry, member, own⟩ := present
  have inside : some k ∈ (mergeAll key merge entries updates).map key :=
    (keys_kept laws good fine).subset (List.mem_map.mpr ⟨entry, member, own⟩)
  obtain ⟨later, member, own⟩ := List.mem_map.mp inside
  exact ⟨later, member, own⟩

theorem update_present
    (good : ∀ entry ∈ entries, Entry entry)
    (fine : ∀ update ∈ updates, Update update)
    (member : update ∈ updates)
    (named : key update = some k) :
    Present key (mergeAll key merge entries updates) k := by
  induction updates generalizing entries with
  | nil =>
      cases member
  | cons first rest ih =>
      have head := fine first List.mem_cons_self
      have goodNext := step_good laws good head
      have fineRest : ∀ other ∈ rest, Update other :=
        fun other inside => fine other (List.mem_cons_of_mem first inside)
      rcases List.mem_cons.mp member with rfl | later
      · apply present_mono laws goodNext fineRest
        have listed : some k ∈ (step key merge entries update).map key := by
          rcases step_keys laws good head with ⟨same, other, own, entry, inside, equal⟩ | ⟨longer, _⟩
          · rw [same, ← named, own]
            exact List.mem_map.mpr ⟨entry, inside, equal⟩
          · rw [longer, named]
            exact List.mem_append_right _ (List.mem_singleton_self (some k))
        obtain ⟨entry, inside, own⟩ := List.mem_map.mp listed
        exact ⟨entry, inside, own⟩
      · exact ih goodNext fineRest later

theorem mergeAll_good
    (good : ∀ entry ∈ entries, Entry entry)
    (fine : ∀ update ∈ updates, Update update) :
    ∀ entry ∈ mergeAll key merge entries updates, Entry entry := by
  induction updates generalizing entries with
  | nil =>
      exact good
  | cons update rest ih =>
      exact ih (step_good laws good (fine update List.mem_cons_self))
        fun other member => fine other (List.mem_cons_of_mem update member)

end

/-- The updates of a key. -/
def ofKey (key : α → Option κ) (updates : List α) (k : κ) : List α :=
  updates.filter fun update => key update = some k

/-- An entry after all updates of its key. -/
def replay (key : α → Option κ) (merge : α → α → α) (updates : List α) (entry : α) : α :=
  match key entry with
  | none => entry
  | some k => (ofKey key updates k).foldl merge entry

section

variable (laws : Laws key merge Entry Update)

include laws

variable {entry : α}

theorem mem_of_mergeAll_unkeyed
    (good : ∀ entry ∈ entries, Entry entry)
    (fine : ∀ update ∈ updates, Update update)
    (member : entry ∈ mergeAll key merge entries updates)
    (unkeyed : key entry = none) :
    entry ∈ entries ∨ entry ∈ updates := by
  induction updates generalizing entries with
  | nil =>
      exact Or.inl member
  | cons update rest ih =>
      have first := fine update List.mem_cons_self
      have appended : entry ∈ entries ++ [update] → entry ∈ entries ∨ entry ∈ update :: rest := by
        intro inside
        rcases List.mem_append.mp inside with old | last
        · exact Or.inl old
        · rw [List.mem_singleton.mp last]
          exact Or.inr List.mem_cons_self
      rcases ih (step_good laws good first)
          (fun other inside => fine other (List.mem_cons_of_mem update inside)) member with
        stepped | later
      · unfold step at stepped
        split at stepped
        · exact appended stepped
        · rename_i k named
          split at stepped
          · obtain ⟨old, inside, rfl⟩ := List.mem_map.mp stepped
            have own : key old = none :=
              (key_mergeInto laws (good old inside) first named).symm.trans unkeyed
            have same : mergeInto key merge k update old = old := by
              simp [mergeInto, own]
            rw [same]
            exact Or.inl inside
          · exact appended stepped
      · exact Or.inr (List.mem_cons_of_mem update later)

theorem mergeAll_eq_map
    (good : ∀ entry ∈ entries, Entry entry)
    (fine : ∀ update ∈ updates, Update update)
    (present : ∀ update ∈ updates, ∃ k, key update = some k ∧ Present key entries k) :
    mergeAll key merge entries updates = entries.map (replay key merge updates) := by
  induction updates generalizing entries with
  | nil =>
      have same : ∀ entry ∈ entries, replay key merge [] entry = entry := by
        intro entry _
        unfold replay
        split <;> rfl
      rw [List.map_congr_left same]
      exact (List.map_id' entries).symm
  | cons update rest ih =>
      have first := fine update List.mem_cons_self
      obtain ⟨k, named, there⟩ := present update List.mem_cons_self
      have stepped : step key merge entries update =
          entries.map (mergeInto key merge k update) := by
        rw [step, named]
        exact if_pos there
      have sameKeys : ∀ entry ∈ entries,
          key (mergeInto key merge k update entry) = key entry :=
        fun entry member => key_mergeInto laws (good entry member) first named
      have later := ih (step_good laws good first)
        (fun other member => fine other (List.mem_cons_of_mem update member)) (by
          intro other member
          obtain ⟨otherKey, own, inside⟩ := present other (List.mem_cons_of_mem update member)
          refine ⟨otherKey, own, ?_⟩
          have one : ∀ single ∈ [update], Update single := by
            intro single only
            rw [List.mem_singleton.mp only]
            exact first
          have later : Present key (mergeAll key merge entries [update]) otherKey :=
            present_mono laws good one inside
          exact later)
      have unfolded : mergeAll key merge entries (update :: rest) =
          mergeAll key merge (step key merge entries update) rest := rfl
      rw [unfolded, later, stepped, List.map_map]
      apply List.map_congr_left
      intro entry member
      unfold replay
      rw [Function.comp_apply, sameKeys entry member]
      cases own : key entry with
      | none =>
          simp [mergeInto, own]
      | some other =>
          by_cases same : other = k
          · simp [mergeInto, own, ofKey, named, same]
          · have apart : ¬k = other := fun equal => same equal.symm
            simp [mergeInto, own, ofKey, named, same, apart]

theorem entry_merged
    (good : ∀ entry ∈ entries, Entry entry)
    (fine : ∀ update ∈ updates, Update update)
    {k : κ}
    (member : entry ∈ mergeAll key merge entries updates)
    (own : key entry = some k) :
    (∃ old ∈ entries, key old = some k ∧ entry = (ofKey key updates k).foldl merge old) ∨
      (¬Present key entries k ∧
        ∃ first rest, ofKey key updates k = first :: rest ∧ entry = rest.foldl merge first) := by
  induction updates using List.reverseRecOn generalizing entry with
  | nil =>
      exact Or.inl ⟨entry, member, own, rfl⟩
  | append_singleton before update ih =>
      have fineBefore : ∀ other ∈ before, Update other :=
        fun other inside => fine other (List.mem_append_left _ inside)
      have fineLast : Update update := fine update (by simp)
      have goodBefore := mergeAll_good laws good fineBefore
      have unfolded : mergeAll key merge entries (before ++ [update]) =
          step key merge (mergeAll key merge entries before) update := by
        simp [mergeAll]
      rw [unfolded] at member
      -- An entry of another key is what it was before.
      have elsewhere : ∀ old ∈ mergeAll key merge entries before, key old = some k →
          key update ≠ some k → old = entry →
          (∃ old ∈ entries, key old = some k ∧
              entry = (ofKey key (before ++ [update]) k).foldl merge old) ∨
            (¬Present key entries k ∧
              ∃ first rest, ofKey key (before ++ [update]) k = first :: rest ∧
                entry = rest.foldl merge first) := by
        rintro old inside ownOld different rfl
        have same : ofKey key (before ++ [update]) k = ofKey key before k := by
          simp [ofKey, different]
        rw [same]
        exact ih fineBefore inside ownOld
      unfold step at member
      split at member
      · rename_i unnamed
        rcases List.mem_append.mp member with old | last
        · exact elsewhere entry old own (by simp [unnamed]) rfl
        · rw [List.mem_singleton.mp last, unnamed] at own
          cases own
      · rename_i named k' named'
        split at member
        · obtain ⟨old, inside, rfl⟩ := List.mem_map.mp member
          rw [key_mergeInto laws (goodBefore old inside) fineLast named'] at own
          by_cases same : k = k'
          · subst same
            have merged : mergeInto key merge k update old = merge old update := by
              simp [mergeInto, own]
            have longer : ofKey key (before ++ [update]) k = ofKey key before k ++ [update] := by
              simp [ofKey, named']
            rw [merged, longer]
            rcases ih fineBefore inside own with
              ⟨start, present, ownStart, equal⟩ | ⟨absent, first, rest, start, equal⟩
            · exact Or.inl ⟨start, present, ownStart, by rw [equal, List.foldl_append]; rfl⟩
            · refine Or.inr ⟨absent, first, rest ++ [update], by rw [start]; rfl, ?_⟩
              rw [equal, List.foldl_append]
              rfl
          · have untouched : mergeInto key merge k' update old = old := by
              simp [mergeInto, own, same]
            rw [untouched] at elsewhere ⊢
            refine elsewhere old inside own ?_ rfl
            rw [named']
            exact fun equal => same (Option.some.inj equal).symm
        · rename_i absent
          rcases List.mem_append.mp member with old | last
          · have different : key update ≠ some k := by
              rw [named']
              intro equal
              exact absent ⟨entry, old, by rw [own, equal]⟩
            exact elsewhere entry old own different rfl
          · rw [List.mem_singleton] at last
            subst last
            have same : k = k' := Option.some.inj (own.symm.trans named')
            subst same
            have none : ofKey key before k = [] := by
              unfold ofKey
              rw [List.filter_eq_nil_iff]
              intro other inside equal
              exact absent (update_present laws good fineBefore inside (by simpa using equal))
            refine Or.inr ⟨fun there => absent (present_mono laws good fineBefore there),
              entry, [], ?_, rfl⟩
            simp [ofKey, named'] at none ⊢
            exact none

theorem mergeAll_idempotent
    (good : ∀ entry ∈ entries, Entry entry)
    (fine : ∀ update ∈ updates, Update update)
    (named : ∀ update ∈ updates, key update ≠ none)
    (replays : ∀ entry k, Entry entry → key entry = some k →
      (ofKey key updates k).foldl merge ((ofKey key updates k).foldl merge entry) =
        (ofKey key updates k).foldl merge entry)
    (reflexive : ∀ k first rest, ¬Present key entries k → ofKey key updates k = first :: rest →
      merge first first = first) :
    mergeAll key merge (mergeAll key merge entries updates) updates =
      mergeAll key merge entries updates := by
  have present : ∀ update ∈ updates, ∃ k, key update = some k ∧
      Present key (mergeAll key merge entries updates) k := by
    intro update member
    obtain ⟨k, own⟩ := Option.ne_none_iff_exists'.mp (named update member)
    exact ⟨k, own, update_present laws good fine member own⟩
  rw [mergeAll_eq_map laws (mergeAll_good laws good fine) fine present]
  have same : ∀ entry ∈ mergeAll key merge entries updates,
      replay key merge updates entry = entry := by
    intro entry member
    unfold replay
    cases own : key entry with
    | none =>
        rfl
    | some k =>
        rcases entry_merged laws good fine member own with
          ⟨old, inside, ownOld, equal⟩ | ⟨absent, first, rest, start, equal⟩
        · rw [equal]
          exact replays old k (good old inside) ownOld
        · -- The update that became the entry is merged into it as well the second time.
          have inside : first ∈ ofKey key updates k := by
            rw [start]
            exact List.mem_cons_self
          obtain ⟨listed, ownFirst⟩ := List.mem_filter.mp inside
          have whole : entry = (ofKey key updates k).foldl merge first := by
            rw [start, List.foldl_cons, reflexive k first rest absent start]
            exact equal
          rw [whole]
          exact replays first k (laws.enters first (fine first listed)) (by simpa using ownFirst)
  rw [List.map_congr_left same]
  exact List.map_id' _

end

end KeyedMerge
