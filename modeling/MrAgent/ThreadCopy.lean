import MrAgent.CheckpointRefinement

namespace MrAgent

open RedisCommands CoreRedisCheckpointSaver

/-!
# Copying a thread

A copy lists the checkpoints of the empty namespace, each by its last put, and
puts and writes them again for the other thread, the oldest first.
-/

variable {Object : Type}

/-- The puts that no later one of the same id replaces, the newest first. -/
def latestPuts : List (PutRecord Object) → List (PutRecord Object)
  | [] => []
  | put :: earlier =>
      put :: (latestPuts earlier).filter fun other => other.body.id ≠ put.body.id

theorem ranked_ids
    (puts : List (PutRecord Object)) :
    (ranked puts).map Prod.fst = (latestPuts puts).map (·.body.id) := by
  induction puts with
  | nil =>
      rfl
  | cons put earlier ih =>
      simp only [ranked, latestPuts, List.map_cons]
      have filtered : ((ranked earlier).filter (·.1 ≠ put.body.id)).map Prod.fst =
          ((ranked earlier).map Prod.fst).filter (· ≠ put.body.id) := by
        rw [List.filter_map]
        rfl
      have latest : ((latestPuts earlier).filter fun other =>
            other.body.id ≠ put.body.id).map (·.body.id) =
          ((latestPuts earlier).map (·.body.id)).filter (· ≠ put.body.id) := by
        rw [List.filter_map]
        rfl
      rw [filtered, latest, ih]

variable {puts : List (PutRecord Object)}

variable {put : PutRecord Object}

theorem mem_of_mem_latestPuts
    (member : put ∈ latestPuts puts) :
    put ∈ puts := by
  induction puts with
  | nil =>
      cases member
  | cons first earlier ih =>
      rcases List.mem_cons.mp member with rfl | later
      · exact List.mem_cons_self
      · exact List.mem_cons_of_mem _ (ih (List.mem_of_mem_filter later))

theorem nodup_latestPuts
    (puts : List (PutRecord Object)) :
    ((latestPuts puts).map (·.body.id)).Nodup := by
  induction puts with
  | nil =>
      exact List.nodup_nil
  | cons put earlier ih =>
      rw [latestPuts, List.map_cons, List.nodup_cons]
      constructor
      · intro again
        obtain ⟨other, kept, same⟩ := List.mem_map.mp again
        have different := (List.mem_filter.mp kept).2
        simp [same] at different
      · exact ih.sublist (List.filter_sublist.map _)

theorem lastPut_latestPuts
    (puts : List (PutRecord Object))
    (checkpointId : String) :
    lastPut (latestPuts puts) checkpointId = lastPut puts checkpointId := by
  induction puts with
  | nil =>
      rfl
  | cons put earlier ih =>
      rw [latestPuts, lastPut, lastPut, List.find?_cons, List.find?_cons]
      by_cases same : put.body.id = checkpointId
      · simp [same]
      · simp only [same, decide_false]
        rw [List.find?_filter]
        rw [lastPut, lastPut] at ih
        rw [← ih]
        congr 1
        funext other
        by_cases own : other.body.id = checkpointId
        · have different : other.body.id ≠ put.body.id := fun both => same (both ▸ own)
          simp [own, Ne.symm same]
        · simp [own]

theorem find?_key
    {Item Label : Type}
    [DecidableEq Label]
    {key : Item → Label}
    {items : List Item}
    (distinct : (items.map key).Nodup)
    {item : Item}
    (member : item ∈ items) :
    items.find? (fun other => key other = key item) = some item := by
  induction items with
  | nil =>
      cases member
  | cons first rest ih =>
      rw [List.map_cons, List.nodup_cons] at distinct
      rcases List.mem_cons.mp member with rfl | later
      · simp
      · have other : key first ≠ key item :=
          fun same => distinct.1 (same ▸ List.mem_map_of_mem later)
        rw [List.find?_cons_of_neg (by simpa using other)]
        exact ih distinct.2 later

theorem lastPut_of_mem_latestPuts
    (member : put ∈ latestPuts puts) :
    lastPut puts put.body.id = some put := by
  rw [← lastPut_latestPuts]
  exact find?_key (nodup_latestPuts puts) member

/-! ## Slots -/

/-- The place a write is kept at. -/
def StoredWrite.slot (write : StoredWrite Object) : String × Int :=
  (write.taskId, write.index)

variable {write other : StoredWrite Object}

theorem sameSlot_eq_true :
    write.sameSlot other = true ↔ other.slot = write.slot := by
  simp [StoredWrite.sameSlot, StoredWrite.slot]

theorem slots_keepWrite
    (kept : List (StoredWrite Object))
    (write : StoredWrite Object) :
    (keepWrite kept write).map StoredWrite.slot =
      if write.slot ∈ kept.map StoredWrite.slot then kept.map StoredWrite.slot
      else kept.map StoredWrite.slot ++ [write.slot] := by
  have taken : kept.any write.sameSlot = true ↔ write.slot ∈ kept.map StoredWrite.slot := by
    simp only [List.any_eq_true, sameSlot_eq_true, List.mem_map]
  unfold keepWrite
  by_cases there : write.slot ∈ kept.map StoredWrite.slot
  · rw [if_pos (taken.mpr there), if_pos there]
    split
    · rw [List.map_map]
      apply List.map_congr_left
      intro other _
      simp only [Function.comp_apply]
      split
      · next same =>
          exact (sameSlot_eq_true.mp same).symm
      · rfl
    · rfl
  · rw [if_neg (fun any => there (taken.mp any)), if_neg there, List.map_append]
    rfl

variable {kept : List (StoredWrite Object)}

theorem nodup_keepWrite
    (distinct : (kept.map StoredWrite.slot).Nodup)
    (write : StoredWrite Object) :
    ((keepWrite kept write).map StoredWrite.slot).Nodup := by
  rw [slots_keepWrite]
  split
  · exact distinct
  · next absent =>
      exact List.nodup_append.mpr ⟨distinct, List.nodup_singleton _, by
        intro slot inside other single same
        rw [List.mem_singleton.mp single] at same
        exact absent (same ▸ inside)⟩

variable {writes kept : List (StoredWrite Object)}

theorem foldl_keepWrite_of_nodup
    (distinct : ((kept ++ writes).map StoredWrite.slot).Nodup) :
    writes.foldl keepWrite kept = kept ++ writes := by
  induction writes generalizing kept with
  | nil =>
      exact (List.append_nil kept).symm
  | cons write rest ih =>
      have absent : ¬kept.any write.sameSlot = true := by
        intro any
        obtain ⟨other, inside, same⟩ := List.any_eq_true.mp any
        rw [List.map_append, List.map_cons] at distinct
        have apart := (List.nodup_append.mp distinct).2.2 other.slot
          (List.mem_map_of_mem inside) write.slot List.mem_cons_self
        exact apart (sameSlot_eq_true.mp same)
      have appended : keepWrite kept write = kept ++ [write] := by
        rw [keepWrite, if_neg absent]
      rw [List.foldl_cons, appended, ih (by simpa using distinct)]
      simp

theorem mem_keepWrite
    (member : other ∈ keepWrite kept write) :
    other ∈ kept ∨ other = write := by
  unfold keepWrite at member
  split at member
  · split at member
    · obtain ⟨old, inside, made⟩ := List.mem_map.mp member
      split at made
      · exact Or.inr made.symm
      · exact Or.inl (made ▸ inside)
    · exact Or.inl member
  · rcases List.mem_append.mp member with old | new
    · exact Or.inl old
    · exact Or.inr (List.mem_singleton.mp new)

theorem mem_foldl_keepWrite
    {write : StoredWrite Object}
    (member : write ∈ writes.foldl keepWrite kept) :
    write ∈ kept ∨ write ∈ writes := by
  induction writes generalizing kept with
  | nil =>
      exact Or.inl member
  | cons first rest ih =>
      rcases ih member with before | later
      · rcases mem_keepWrite before with old | new
        · exact Or.inl old
        · exact Or.inr (new ▸ List.mem_cons_self)
      · exact Or.inr (List.mem_cons_of_mem _ later)

theorem nodup_foldl_keepWrite
    (writes : List (StoredWrite Object))
    (distinct : (kept.map StoredWrite.slot).Nodup) :
    ((writes.foldl keepWrite kept).map StoredWrite.slot).Nodup := by
  induction writes generalizing kept with
  | nil =>
      exact distinct
  | cons write rest ih =>
      exact ih (nodup_keepWrite distinct write)

/-- A write has the index of its channel, or its place in a call. -/
def CoreRedisCheckpointSaver.Indexed
    (saver : CoreRedisCheckpointSaver Object)
    (write : StoredWrite Object) : Prop :=
  match saver.writesIdxMap write.channel with
  | some index => write.index = index
  | none => 0 ≤ write.index

variable {saver : CoreRedisCheckpointSaver Object}

theorem indexed_of_mem_indexedWrites
    {writes : List (String × Object)}
    {taskId taskPath : String}
    {write : StoredWrite Object}
    (member : write ∈ saver.indexedWrites writes taskId taskPath) :
    saver.Indexed write ∧ write.taskId = taskId := by
  obtain ⟨entry, _, rfl⟩ := List.mem_map.mp member
  refine ⟨?_, rfl⟩
  simp only [Indexed]
  split
  · next index found =>
      rw [found, Option.getD_some]
  · next found =>
      rw [found, Option.getD_none]
      exact Int.natCast_nonneg _

/-- The writes of a log have slots of their own and the indexes of their channels. -/
def CoreRedisCheckpointSaver.WellIndexed
    (saver : CoreRedisCheckpointSaver Object)
    (log : SaverLog Object) : Prop :=
  ∀ threadId checkpointNs checkpointId,
    ((log.writes threadId checkpointNs checkpointId).map StoredWrite.slot).Nodup ∧
      ∀ write ∈ log.writes threadId checkpointNs checkpointId, saver.Indexed write

variable {log : SaverLog Object}

theorem wellIndexed_record
    (wellIndexed : saver.WellIndexed log)
    (call : SaverCall Object) :
    saver.WellIndexed (saver.record log call) := by
  intro thread space id
  cases call with
  | put config checkpoint metadata newVersions =>
      exact wellIndexed thread space id
  | putWrites config writes taskId taskPath =>
      simp only [record]
      split
      · exact wellIndexed thread space id
      · simp only [SaverLog.putWrites]
        split
        · next same =>
            obtain ⟨rfl, rfl, rfl⟩ := same
            have before := wellIndexed config.threadId config.checkpointNs id
            refine ⟨nodup_foldl_keepWrite _ before.1, ?_⟩
            intro write member
            rcases mem_foldl_keepWrite member with old | new
            · exact before.2 write old
            · exact (indexed_of_mem_indexedWrites new).1
        · exact wellIndexed thread space id
  | deleteThread threadId =>
      simp only [record, SaverLog.deleteThread]
      split
      · exact ⟨List.nodup_nil, fun _ member => absurd member List.not_mem_nil⟩
      · exact wellIndexed thread space id

theorem wellIndexed_history
    (saver : CoreRedisCheckpointSaver Object)
    (calls : List (SaverCall Object)) :
    saver.WellIndexed (saver.history calls) := by
  induction calls using List.reverseRecOn with
  | nil =>
      exact fun _ _ _ => ⟨List.nodup_nil, nofun⟩
  | append_singleton earlier call ih =>
      rw [history, List.foldl_concat]
      exact wellIndexed_record ih call

/-! ## The listing -/

variable {threadId checkpointNs : String} {db : CheckpointDb Object}

theorem listTuples_eq
    (holds : HoldsLog log db)
    (listed : ∀ put ∈ puts, put ∈ latestPuts (log.puts threadId checkpointNs)) :
    listTuples db (fun _ => true) none
        (puts.map fun put => (threadId, checkpointNs, put.body.id)) =
      .ok (puts.map (log.tupleOf threadId checkpointNs)) := by
  induction puts with
  | nil =>
      rfl
  | cons put rest ih =>
      have own := listed put List.mem_cons_self
      have readable := (holds.wellNamed threadId checkpointNs put (mem_of_mem_latestPuts own)).1
      have read := readCheckpoint holds.represents holds.wellNamed threadId checkpointNs readable
      rw [lastPut_of_mem_latestPuts own] at read
      have tail := ih fun other member =>
        listed other (List.mem_cons_of_mem _ member)
      rw [List.map_cons, listTuples, read]
      simp only [Option.map_some, bind, Except.bind, if_true, Option.map_none, Option.any_none,
        Bool.false_eq_true, if_false, tail]
      rfl

theorem list_eq
    (holds : HoldsLog log db)
    (threadId : String)
    (extra : Object) :
    CoreRedisCheckpointSaver.list db (some { threadId, extra }) (fun _ => true) none none =
      .ok ((latestPuts (log.puts threadId "")).map (log.tupleOf threadId "")) := by
  have held := holds.represents.index threadId ""
  change db (indexKey threadId "") = _ at held
  have ranking : zrevrange db (indexKey threadId "") =
      .ok ((latestPuts (log.puts threadId "")).map (·.body.id)) := by
    rw [zrevrange, held]
    cases puts : log.puts threadId "" with
    | nil =>
        rfl
    | cons last earlier =>
        rw [← ranked_ids]
        rfl
  have ids : listIds db (some { threadId, extra }) none =
      .ok ((latestPuts (log.puts threadId "")).map fun put => (threadId, "", put.body.id)) := by
    simp [listIds, ranking, reply, givenId, bind, Except.bind, pure, Except.pure]
  rw [CoreRedisCheckpointSaver.list, ids]
  exact listTuples_eq holds fun _ member => member

/-! ## The log after a copy -/

variable (saver : CoreRedisCheckpointSaver Object) (target : String)

/-- The put that copies an item. -/
def copiedPut (item : CheckpointTuple Object) : PutRecord Object where
  body := item.checkpoint.body
  channelValues := item.checkpoint.channelValues
  metadata := saver.checkpointMetadata saver.noExtra item.metadata
  parentId := givenId item.parentId
  newVersions := item.checkpoint.body.channelVersions

/-- The writes that copy those of an item. -/
def copiedWrites (item : CheckpointTuple Object) : List (StoredWrite Object) :=
  saver.indexedWrites (item.pendingWrites.map Prod.snd) "copied" ""

/-- The log after the calls for some items, the last item first. -/
def copiedLog (log : SaverLog Object) (items : List (CheckpointTuple Object)) : SaverLog Object :=
  (items.reverse.flatMap (saver.copyCalls target)).foldl saver.record log

theorem putWrites_nil
    (log : SaverLog Object)
    (threadId checkpointNs checkpointId : String) :
    log.putWrites threadId checkpointNs checkpointId [] = log := by
  have same : (log.putWrites threadId checkpointNs checkpointId []).writes = log.writes := by
    funext thread space id
    simp only [SaverLog.putWrites, List.foldl_nil]
    split
    · next own =>
        obtain ⟨rfl, rfl, rfl⟩ := own
        rfl
    · rfl
  exact congrArg (SaverLog.mk log.puts) same

theorem copiedLog_cons
    (item : CheckpointTuple Object)
    (items : List (CheckpointTuple Object))
    (named : ReadableId item.checkpoint.body.id) :
    copiedLog saver target log (item :: items) =
      ((copiedLog saver target log items).put target item.checkpointNs
        (copiedPut saver item)).putWrites target item.checkpointNs item.checkpoint.body.id
          (copiedWrites saver item) := by
  unfold copiedLog
  rw [List.reverse_cons, List.flatMap_append, List.foldl_append]
  simp only [List.flatMap_cons, List.flatMap_nil, List.append_nil, copyCalls]
  split
  · next none =>
      have silent : copiedWrites saver item = [] := by
        rw [copiedWrites, List.isEmpty_iff.mp none]
        rfl
      rw [silent, putWrites_nil]
      rfl
  · simp only [List.foldl_cons, List.foldl_nil, record, givenId_some named.1]
    rfl

/-- Items of the empty namespace with ids that can be read back. -/
def RootItems (items : List (CheckpointTuple Object)) : Prop :=
  ∀ item ∈ items, ReadableId item.checkpoint.body.id ∧ item.checkpointNs = ""

variable {items : List (CheckpointTuple Object)}

variable {item : CheckpointTuple Object}

theorem RootItems.tail
    (root : RootItems (item :: items)) :
    RootItems items :=
  fun other member => root other (List.mem_cons_of_mem _ member)

theorem puts_copiedLog
    (root : RootItems items) :
    (copiedLog saver target log items).puts target "" =
      items.map (copiedPut saver) ++ log.puts target "" := by
  induction items with
  | nil =>
      rfl
  | cons item rest ih =>
      obtain ⟨named, space⟩ := root item List.mem_cons_self
      rw [copiedLog_cons saver target item rest named, space]
      simp only [SaverLog.putWrites, SaverLog.put, and_self, if_true, List.map_cons,
        List.cons_append]
      rw [ih root.tail]

theorem puts_copiedLog_other
    (root : RootItems items)
    (other : ¬(threadId = target ∧ checkpointNs = "")) :
    (copiedLog saver target log items).puts threadId checkpointNs =
      log.puts threadId checkpointNs := by
  induction items with
  | nil =>
      rfl
  | cons item rest ih =>
      obtain ⟨named, space⟩ := root item List.mem_cons_self
      rw [copiedLog_cons saver target item rest named, space]
      simp only [SaverLog.putWrites, SaverLog.put, if_neg other]
      exact ih root.tail

theorem writes_copiedLog_other
    (root : RootItems items)
    {threadId checkpointNs checkpointId : String}
    (other : threadId = target → checkpointNs = "" →
      ∀ item ∈ items, item.checkpoint.body.id ≠ checkpointId) :
    (copiedLog saver target log items).writes threadId checkpointNs checkpointId =
      log.writes threadId checkpointNs checkpointId := by
  induction items with
  | nil =>
      rfl
  | cons item rest ih =>
      obtain ⟨named, space⟩ := root item List.mem_cons_self
      rw [copiedLog_cons saver target item rest named, space]
      have apart : ¬(threadId = target ∧ checkpointNs = "" ∧
          checkpointId = item.checkpoint.body.id) := by
        rintro ⟨own, root, same⟩
        exact other own root item List.mem_cons_self same.symm
      simp only [SaverLog.putWrites, SaverLog.put, if_neg apart]
      exact ih root.tail fun own root later member =>
        other own root later (List.mem_cons_of_mem _ member)

theorem writes_copiedLog
    (root : RootItems items)
    (distinct : (items.map (·.checkpoint.body.id)).Nodup)
    (member : item ∈ items) :
    (copiedLog saver target log items).writes target "" item.checkpoint.body.id =
      (copiedWrites saver item).foldl keepWrite
        (log.writes target "" item.checkpoint.body.id) := by
  induction items with
  | nil =>
      cases member
  | cons first rest ih =>
      obtain ⟨named, space⟩ := root first List.mem_cons_self
      rw [List.map_cons, List.nodup_cons] at distinct
      rw [copiedLog_cons saver target first rest named, space]
      simp only [SaverLog.putWrites, SaverLog.put, true_and]
      rcases List.mem_cons.mp member with rfl | later
      · have unwritten : (copiedLog saver target log rest).writes target ""
            item.checkpoint.body.id = log.writes target "" item.checkpoint.body.id :=
          writes_copiedLog_other saver target root.tail
            fun _ _ other inRest same => distinct.1 (same ▸ List.mem_map_of_mem inRest)
        rw [if_pos rfl, unwritten]
      · have other : item.checkpoint.body.id ≠ first.checkpoint.body.id := by
          intro same
          apply distinct.1
          rw [← same]
          exact List.mem_map_of_mem (f := fun item : CheckpointTuple Object =>
            item.checkpoint.body.id) later
        rw [if_neg other]
        exact ih root.tail distinct.2 later

end MrAgent
