import MrAgent.ThreadCopy

namespace MrAgent

open RedisCommands CoreRedisCheckpointSaver

/-!
# When a copy is faithful

The copy of a checkpoint has its body, channels, metadata and parent. Its writes
all come from one task that is called `copied`, so a copy shows what the source
shows if the source has nothing outside the empty namespace and no other task.
-/

variable {Object : Type}

/-- Two tuples that differ in their thread and the order of the pending writes at most. -/
structure SameTuple (tuple other : CheckpointTuple Object) : Prop where
  checkpointNs : tuple.checkpointNs = other.checkpointNs
  checkpointId : tuple.checkpointId = other.checkpointId
  checkpoint : tuple.checkpoint = other.checkpoint
  metadata : tuple.metadata = other.metadata
  parentId : tuple.parentId = other.parentId
  pendingWrites : tuple.pendingWrites.Perm other.pendingWrites

/-- Two readings that find nothing, or the same tuple. -/
def SameReading
    (reading other : Except SaverFailure (Option (CheckpointTuple Object))) : Prop :=
  ∃ found copied, reading = .ok found ∧ other = .ok copied ∧ Option.Rel SameTuple found copied

/-- A database without keys of a thread. -/
def ThreadEmpty (threadId : String) (db : CheckpointDb Object) : Prop :=
  ∀ key, threadPrefix threadId <+: key → db key = none

/-- A log without a thread. -/
structure SaverLog.Forgets (log : SaverLog Object) (threadId : String) : Prop where
  puts : ∀ checkpointNs, log.puts threadId checkpointNs = []
  writes : ∀ checkpointNs checkpointId, log.writes threadId checkpointNs checkpointId = []

variable {log : SaverLog Object} {db : CheckpointDb Object}

theorem forgets_of_threadEmpty
    (represents : Represents log (cells db))
    {threadId : String}
    (empty : ThreadEmpty threadId db) :
    log.Forgets threadId where
  puts := by
    intro checkpointNs
    have held := represents.sequence threadId checkpointNs
    have none : cells db (.sequence threadId checkpointNs) = none :=
      empty _ ((SaverKey.threadPrefix_prefix_iff threadId _).mpr rfl)
    rw [none] at held
    cases puts : log.puts threadId checkpointNs with
    | nil => rfl
    | cons put earlier =>
        rw [puts] at held
        cases held
  writes := by
    intro checkpointNs checkpointId
    have held := represents.writes threadId checkpointNs checkpointId
    have none : cells db (.writes threadId checkpointNs checkpointId) = none :=
      empty _ ((SaverKey.threadPrefix_prefix_iff threadId _).mpr rfl)
    rw [none] at held
    cases writes : log.writes threadId checkpointNs checkpointId with
    | nil => rfl
    | cons write rest =>
        rw [writes] at held
        cases held

/-! ## The calls of a copy -/

variable {calls : List (SaverCall Object)}

theorem serveAll_eq
    (saver : CoreRedisCheckpointSaver Object)
    (readable : ∀ call ∈ calls, call.Readable)
    (silent : ∀ call ∈ calls, call.raises = none)
    (holds : HoldsLog log db) :
    saver.serveAll calls db = (calls.foldl (fun db call => (saver.serve call db).1) db, none) := by
  induction calls generalizing log db with
  | nil =>
      rfl
  | cons call rest ih =>
      have first := readable call List.mem_cons_self
      have served := holds.represents.serve saver first
      have next : HoldsLog (saver.record log call) (saver.serve call db).1 :=
        ⟨served.2, holds.wellNamed.record saver first⟩
      have tail := ih
        (fun other member => readable other (List.mem_cons_of_mem _ member))
        (fun other member => silent other (List.mem_cons_of_mem _ member)) next
      rw [serveAll, served.1, silent call List.mem_cons_self, List.foldl_cons]
      exact tail

variable {target : String} {call : SaverCall Object}

theorem copyCalls_served
    {saver : CoreRedisCheckpointSaver Object}
    {item : CheckpointTuple Object}
    (named : ReadableId item.checkpoint.body.id)
    (member : call ∈ saver.copyCalls target item) :
    call.Readable ∧ call.raises = none := by
  unfold copyCalls at member
  split at member
  · rw [List.mem_singleton.mp member]
    exact ⟨named, rfl⟩
  · rcases List.mem_cons.mp member with rfl | second
    · exact ⟨named, rfl⟩
    · rw [List.mem_singleton.mp second]
      exact ⟨trivial, by simp [SaverCall.raises, givenId_some named.1]⟩

/-- The items that a copy of a thread lists. -/
def listedItems (log : SaverLog Object) (source : String) : List (CheckpointTuple Object) :=
  (latestPuts (log.puts source "")).map (log.tupleOf source "")

theorem rootItems_listed
    (wellNamed : WellNamed log)
    (source : String) :
    RootItems (listedItems log source) := by
  intro item member
  obtain ⟨put, latest, rfl⟩ := List.mem_map.mp member
  exact ⟨(wellNamed source "" put (mem_of_mem_latestPuts latest)).1, rfl⟩

theorem copyThread_eq
    (holds : HoldsLog log db)
    (saver : CoreRedisCheckpointSaver Object)
    (source target : String) :
    (saver.copyThread source target db).2 = none ∧
      HoldsLog (copiedLog saver target log (listedItems log source))
        (saver.copyThread source target db).1 := by
  have root := rootItems_listed holds.wellNamed source
  have served : ∀ call ∈ (listedItems log source).reverse.flatMap (saver.copyCalls target),
      call.Readable ∧ call.raises = none := by
    intro call member
    obtain ⟨item, listed, inCalls⟩ := List.mem_flatMap.mp member
    exact copyCalls_served (root item (List.mem_reverse.mp listed)).1 inCalls
  have readable := fun call member => (served call member).1
  have all := serveAll_eq saver readable (fun call member => (served call member).2) holds
  have copied : saver.copyThread source target db = saver.serveAll
      ((listedItems log source).reverse.flatMap (saver.copyCalls target)) db := by
    rw [copyThread, list_eq holds]
    rfl
  rw [copied, all]
  exact ⟨rfl, holds.foldl saver readable⟩

/-! ## The tuples of a copy -/

theorem head?_latestPuts
    (puts : List (PutRecord Object)) :
    (latestPuts puts).head? = puts.head? := by
  cases puts <;> rfl

variable {source target : String}

theorem chosen_copiedLog
    (wellNamed : WellNamed log)
    (saver : CoreRedisCheckpointSaver Object)
    (forgets : log.Forgets target)
    (requested : Option String) :
    (copiedLog saver target log (listedItems log source)).chosen target "" requested =
      (log.chosen source "" requested).map fun put =>
        copiedPut saver (log.tupleOf source "" put) := by
  have puts : (copiedLog saver target log (listedItems log source)).puts target "" = _ :=
    puts_copiedLog saver target (rootItems_listed wellNamed source)
  rw [forgets.puts, List.append_nil] at puts
  simp only [SaverLog.chosen]
  rw [puts, listedItems, List.map_map]
  split
  · next checkpointId =>
      rw [lastPut, List.find?_map, ← lastPut_latestPuts (log.puts source "")]
      rfl
  · rw [List.head?_map, head?_latestPuts]
    rfl

variable {put : PutRecord Object}

variable {requested : Option String}

theorem chosen_mem_latestPuts
    {threadId checkpointNs : String}
    (chosen : log.chosen threadId checkpointNs requested = some put) :
    put ∈ latestPuts (log.puts threadId checkpointNs) := by
  unfold SaverLog.chosen at chosen
  split at chosen
  · rw [← lastPut_latestPuts] at chosen
    exact List.mem_of_find?_eq_some chosen
  · rw [← head?_latestPuts] at chosen
    exact List.mem_of_mem_head? chosen

theorem versionValue_copied
    (saver : CoreRedisCheckpointSaver Object)
    {source : String}
    (latest : put ∈ latestPuts (log.puts source ""))
    {entry : String × Int}
    (versioned : entry ∈ put.body.channelVersions.items) :
    versionValue ((listedItems log source).map (copiedPut saver)) entry =
      versionValue (log.puts source "") entry := by
  cases found : lastWriter ((listedItems log source).map (copiedPut saver)) entry with
  | none =>
      have silent := List.find?_eq_none.mp found (copiedPut saver (log.tupleOf source "" put))
        (List.mem_map_of_mem (List.mem_map_of_mem latest))
      simp [copiedPut, SaverLog.tupleOf, versioned] at silent
  | some writer =>
      obtain ⟨item, listed, rfl⟩ := List.mem_map.mp (List.mem_of_find?_eq_some found)
      obtain ⟨other, _, rfl⟩ := List.mem_map.mp listed
      have writes : entry ∈ other.body.channelVersions.items := by
        have matching := List.find?_some found
        exact of_decide_eq_true matching
      rw [versionValue, found, Option.bind_some]
      exact lookup_filterMap other.body.channelVersions.distinct
        (versionValue (log.puts source "")) writes

theorem nodup_copiedWrites
    {saver : CoreRedisCheckpointSaver Object}
    (reserved : ∀ channel index, saver.writesIdxMap channel = some index → index < 0)
    {writes : List (StoredWrite Object)}
    (distinct : (writes.map StoredWrite.slot).Nodup)
    (indexed : ∀ write ∈ writes, saver.Indexed write)
    {taskId : String}
    (one : ∀ write ∈ writes, write.taskId = taskId) :
    ((saver.indexedWrites (writes.map fun write => (write.channel, write.value))
      "copied" "").map StoredWrite.slot).Nodup := by
  have places : (writes.zipIdx.map Prod.snd).Nodup := by
    rw [List.zipIdx_map_snd]
    exact List.nodup_range'
  rw [indexedWrites, List.zipIdx_map, List.map_map, List.map_map]
  apply List.Nodup.map_on _ (List.Nodup.of_map _ places)
  rintro ⟨write, place⟩ member ⟨other, otherPlace⟩ otherMember same
  have found := List.mem_zipIdx' member
  have otherFound := List.mem_zipIdx' otherMember
  simp only [Function.comp_apply, StoredWrite.slot, Prod.map_fst, Prod.map_snd, id_eq,
    Prod.mk.injEq, true_and] at same
  have inside : write ∈ writes := found.2 ▸ List.getElem_mem found.1
  have otherInside : other ∈ writes := otherFound.2 ▸ List.getElem_mem otherFound.1
  have index := indexed write inside
  have otherIndex := indexed other otherInside
  unfold Indexed at index otherIndex
  cases special : saver.writesIdxMap write.channel with
  | some own =>
      have negative := reserved _ _ special
      cases otherSpecial : saver.writesIdxMap other.channel with
      | some another =>
          rw [special, otherSpecial, Option.getD_some, Option.getD_some] at same
          rw [special] at index
          rw [otherSpecial] at otherIndex
          -- Reserved indexes are those of the source, which keeps one write for each.
          have slots : write.slot = other.slot := by
            rw [StoredWrite.slot, StoredWrite.slot, one write inside, one other otherInside, index,
              otherIndex, same]
          have equal := List.inj_on_of_nodup_map distinct inside otherInside slots
          have position : place = otherPlace := by
            apply (List.Nodup.getElem_inj_iff (List.Nodup.of_map _ distinct)).mp
            rw [← found.2, ← otherFound.2, equal]
          rw [equal, position]
      | none =>
          rw [special, otherSpecial, Option.getD_some, Option.getD_none] at same
          omega
  | none =>
      cases otherSpecial : saver.writesIdxMap other.channel with
      | some another =>
          have negative := reserved _ _ otherSpecial
          rw [special, otherSpecial, Option.getD_some, Option.getD_none] at same
          omega
      | none =>
          rw [special, otherSpecial, Option.getD_none, Option.getD_none] at same
          have position : place = otherPlace := Int.ofNat_inj.mp same
          subst position
          rw [found.2, otherFound.2]

theorem entries_indexedWrites
    (saver : CoreRedisCheckpointSaver Object)
    (writes : List (String × Object))
    (taskId taskPath : String) :
    (saver.indexedWrites writes taskId taskPath).map writeEntry =
      writes.map fun write => (taskId, write.1, write.2) := by
  rw [indexedWrites, List.map_map]
  have entries : (writeEntry ∘ fun entry : (String × Object) × Nat =>
        ({ taskId, channel := entry.1.1, value := entry.1.2, taskPath
           index := (saver.writesIdxMap entry.1.1).getD (entry.2 : Int) } : StoredWrite Object)) =
      (fun write : String × Object => (taskId, write.1, write.2)) ∘ Prod.fst := rfl
  rw [entries, ← List.map_map, List.zipIdx_map_fst]

theorem sameTuple_copied
    {saver : CoreRedisCheckpointSaver Object}
    (reserved : ∀ channel index, saver.writesIdxMap channel = some index → index < 0)
    (settled : ∀ extra metadata, saver.checkpointMetadata saver.noExtra
      (saver.checkpointMetadata extra metadata) = saver.checkpointMetadata extra metadata)
    {log : SaverLog Object}
    (wellNamed : WellNamed log)
    (wellIndexed : saver.WellIndexed log)
    {source target : String}
    (forgets : log.Forgets target)
    {put : PutRecord Object}
    (latest : put ∈ latestPuts (log.puts source ""))
    (given : ∃ extra metadata, put.metadata = saver.checkpointMetadata extra metadata)
    (one : ∀ write ∈ log.writes source "" put.body.id, write.taskId = "copied") :
    SameTuple (log.tupleOf source "" put)
      ((copiedLog saver target log (listedItems log source)).tupleOf target ""
        (copiedPut saver (log.tupleOf source "" put))) where
  checkpointNs := rfl
  checkpointId := rfl
  checkpoint := by
    have puts : (copiedLog saver target log (listedItems log source)).puts target "" = _ :=
      puts_copiedLog saver target (rootItems_listed wellNamed source)
    rw [forgets.puts, List.append_nil] at puts
    simp only [SaverLog.tupleOf, copiedPut, Checkpoint.mk.injEq, true_and]
    apply List.filterMap_congr
    intro entry versioned
    rw [puts, versionValue_copied saver latest versioned]
  metadata := by
    obtain ⟨extra, metadata, same⟩ := given
    simp only [SaverLog.tupleOf, copiedPut, same, settled]
  parentId := ((wellNamed source "" put (mem_of_mem_latestPuts latest)).2).symm
  pendingWrites := by
    have item : log.tupleOf source "" put ∈ listedItems log source := List.mem_map_of_mem latest
    have ids : ((listedItems log source).map (·.checkpoint.body.id)).Nodup := by
      rw [listedItems, List.map_map]
      exact nodup_latestPuts (log.puts source "")
    have written : (copiedLog saver target log (listedItems log source)).writes target ""
        put.body.id = (copiedWrites saver (log.tupleOf source "" put)).foldl keepWrite
          (log.writes target "" put.body.id) :=
      writes_copiedLog saver target (rootItems_listed wellNamed source) ids item
    let sorted := (log.writes source "" put.body.id).mergeSort sortsBefore
    have permuted : sorted.Perm (log.writes source "" put.body.id) := List.mergeSort_perm _ _
    have tasks : ∀ write ∈ sorted, write.taskId = "copied" :=
      fun write member => one write (permuted.mem_iff.mp member)
    have values : (log.tupleOf source "" put).pendingWrites.map Prod.snd =
        sorted.map fun write => (write.channel, write.value) := by
      simp only [SaverLog.tupleOf, List.map_map]
      rfl
    have slots := nodup_copiedWrites reserved
      ((permuted.map StoredWrite.slot).nodup_iff.mpr (wellIndexed source "" put.body.id).1)
      (fun write member => (wellIndexed source "" put.body.id).2 write (permuted.mem_iff.mp member))
      tasks
    rw [← values] at slots
    rw [forgets.writes, foldl_keepWrite_of_nodup slots, List.nil_append] at written
    have entries : (copiedWrites saver (log.tupleOf source "" put)).map writeEntry =
        (log.tupleOf source "" put).pendingWrites := by
      rw [copiedWrites, entries_indexedWrites, values, List.map_map]
      apply List.map_congr_left
      intro write member
      simp only [Function.comp_apply, writeEntry, tasks write member]
    have read : ((copiedLog saver target log (listedItems log source)).tupleOf target ""
        (copiedPut saver (log.tupleOf source "" put))).pendingWrites =
          ((copiedWrites saver (log.tupleOf source "" put)).mergeSort sortsBefore).map
            writeEntry := by
      change (((copiedLog saver target log (listedItems log source)).writes target ""
        put.body.id).mergeSort sortsBefore).map writeEntry = _
      rw [written]
    rw [read, ← entries]
    exact ((List.mergeSort_perm _ _).map writeEntry).symm

theorem getTuple_copiedLog_other
    (wellNamed : WellNamed log)
    (saver : CoreRedisCheckpointSaver Object)
    (apart : source ≠ target)
    (checkpointNs : String)
    (requested : Option String) :
    (copiedLog saver target log (listedItems log source)).getTuple source checkpointNs requested =
      log.getTuple source checkpointNs requested := by
  have root := rootItems_listed wellNamed source
  have puts : (copiedLog saver target log (listedItems log source)).puts source checkpointNs =
      log.puts source checkpointNs :=
    puts_copiedLog_other saver target root fun same => apart same.1
  have writes : ∀ checkpointId,
      (copiedLog saver target log (listedItems log source)).writes source checkpointNs
        checkpointId = log.writes source checkpointNs checkpointId :=
    fun checkpointId => writes_copiedLog_other saver target root fun same => absurd same apart
  have tuples : (copiedLog saver target log (listedItems log source)).tupleOf source checkpointNs =
      log.tupleOf source checkpointNs := by
    funext put
    simp only [SaverLog.tupleOf, puts, writes]
  simp only [SaverLog.getTuple, SaverLog.chosen, puts, tuples]

/-- What a copy keeps: checkpoints of the empty namespace, and writes of a task `copied`. -/
structure CopyKeeps (log : SaverLog Object) (source : String) : Prop where
  rootOnly : ∀ checkpointNs, checkpointNs ≠ "" → log.puts source checkpointNs = []
  oneTask : ∀ put ∈ log.puts source "", ∀ write ∈ log.writes source "" put.body.id,
    write.taskId = "copied"

theorem sameReading_copied
    {saver : CoreRedisCheckpointSaver Object}
    (reserved : ∀ channel index, saver.writesIdxMap channel = some index → index < 0)
    (settled : ∀ extra metadata, saver.checkpointMetadata saver.noExtra
      (saver.checkpointMetadata extra metadata) = saver.checkpointMetadata extra metadata)
    {log : SaverLog Object}
    (wellNamed : WellNamed log)
    (wellIndexed : saver.WellIndexed log)
    {source target : String}
    (forgets : log.Forgets target)
    (given : ∀ put ∈ log.puts source "",
      ∃ extra metadata, put.metadata = saver.checkpointMetadata extra metadata)
    (keeps : CopyKeeps log source)
    (checkpointNs : String)
    (requested : Option String) :
    Option.Rel SameTuple (log.getTuple source checkpointNs requested)
      ((copiedLog saver target log (listedItems log source)).getTuple target checkpointNs
        requested) := by
  by_cases root : checkpointNs = ""
  · subst root
    rw [SaverLog.getTuple, SaverLog.getTuple, chosen_copiedLog wellNamed saver forgets]
    cases chosen : log.chosen source "" requested with
    | none =>
        exact Option.Rel.none
    | some put =>
        have latest := chosen_mem_latestPuts chosen
        have member := mem_of_mem_latestPuts latest
        exact Option.Rel.some (sameTuple_copied reserved settled wellNamed wellIndexed forgets latest
          (given put member) (keeps.oneTask put member))
  · have silent : (copiedLog saver target log (listedItems log source)).puts target checkpointNs =
        [] := by
      rw [puts_copiedLog_other saver target (rootItems_listed wellNamed source)
        fun same => root same.2, forgets.puts]
    have empty := keeps.rootOnly checkpointNs root
    have nothing : log.getTuple source checkpointNs requested = none := by
      simp only [SaverLog.getTuple, SaverLog.chosen, empty]
      split <;> rfl
    have copied : (copiedLog saver target log (listedItems log source)).getTuple target
        checkpointNs requested = none := by
      simp only [SaverLog.getTuple, SaverLog.chosen, silent]
      split <;> rfl
    rw [nothing, copied]
    exact Option.Rel.none

theorem task_of_mem_copied
    (wellNamed : WellNamed log)
    (saver : CoreRedisCheckpointSaver Object)
    (forgets : log.Forgets target)
    (latest : put ∈ latestPuts (log.puts source ""))
    {entry : String × String × Object}
    (member : entry ∈ ((copiedLog saver target log (listedItems log source)).tupleOf target ""
      (copiedPut saver (log.tupleOf source "" put))).pendingWrites) :
    entry.1 = "copied" := by
  have item : log.tupleOf source "" put ∈ listedItems log source := List.mem_map_of_mem latest
  have ids : ((listedItems log source).map (·.checkpoint.body.id)).Nodup := by
    rw [listedItems, List.map_map]
    exact nodup_latestPuts (log.puts source "")
  have written : (copiedLog saver target log (listedItems log source)).writes target ""
      put.body.id = (copiedWrites saver (log.tupleOf source "" put)).foldl keepWrite
        (log.writes target "" put.body.id) :=
    writes_copiedLog saver target (rootItems_listed wellNamed source) ids item
  rw [forgets.writes] at written
  obtain ⟨write, inside, rfl⟩ := List.mem_map.mp member
  have kept : write ∈ (copiedLog saver target log (listedItems log source)).writes target ""
      put.body.id := List.mem_mergeSort.mp inside
  rw [written] at kept
  rcases mem_foldl_keepWrite kept with none | copied
  · cases none
  · exact (indexed_of_mem_indexedWrites copied).2

theorem metadata_of_history
    {saver : CoreRedisCheckpointSaver Object}
    {threadId checkpointNs : String}
    (member : put ∈ (saver.history calls).puts threadId checkpointNs) :
    ∃ extra metadata, put.metadata = saver.checkpointMetadata extra metadata := by
  obtain ⟨config, _, metadata, _, _, _, _, rfl⟩ := put_of_history saver member
  exact ⟨config.extra, metadata, rfl⟩

theorem copyKeeps_of_same
    (wellNamed : WellNamed log)
    (saver : CoreRedisCheckpointSaver Object)
    (forgets : log.Forgets target)
    (same : ∀ checkpointNs requested, AskableId requested →
      Option.Rel SameTuple (log.getTuple source checkpointNs requested)
        ((copiedLog saver target log (listedItems log source)).getTuple target checkpointNs
          requested)) :
    CopyKeeps log source := by
  have found : ∀ {checkpointNs} {put : PutRecord Object}, put ∈ log.puts source checkpointNs →
      ∃ last, log.chosen source checkpointNs (some put.body.id) = some last ∧
        last.body.id = put.body.id ∧ AskableId (some put.body.id) := by
    intro checkpointNs put member
    have readable := (wellNamed source checkpointNs put member).1
    cases chosen : lastPut (log.puts source checkpointNs) put.body.id with
    | none =>
        have silent := List.find?_eq_none.mp chosen put member
        simp at silent
    | some last =>
        have named := List.find?_some chosen
        refine ⟨last, ?_, of_decide_eq_true named, ?_, ?_⟩
        · rw [SaverLog.chosen, givenId_some readable.1]
          exact chosen
        · exact fun same => readable.2.1 (Option.some.inj same)
        · exact fun same => readable.2.2 (Option.some.inj same)
  constructor
  · intro checkpointNs elsewhere
    cases puts : log.puts source checkpointNs with
    | nil => rfl
    | cons put earlier =>
        have member : put ∈ log.puts source checkpointNs := puts ▸ List.mem_cons_self
        obtain ⟨last, chosen, _, askable⟩ := found member
        have silent : (copiedLog saver target log (listedItems log source)).puts target
            checkpointNs = [] := by
          rw [puts_copiedLog_other saver target (rootItems_listed wellNamed source)
            fun same => elsewhere same.2, forgets.puts]
        have copied : (copiedLog saver target log (listedItems log source)).getTuple target
            checkpointNs (some put.body.id) = none := by
          simp only [SaverLog.getTuple, SaverLog.chosen, silent]
          split <;> rfl
        have reading := same checkpointNs _ askable
        rw [copied, SaverLog.getTuple, chosen] at reading
        cases reading
  · intro put member write written
    obtain ⟨last, chosen, named, askable⟩ := found member
    have reading := same "" _ askable
    rw [SaverLog.getTuple, SaverLog.getTuple, chosen_copiedLog wellNamed saver forgets,
      chosen] at reading
    simp only [Option.map_some] at reading
    cases reading with
    | some tuples =>
        have pending : writeEntry write ∈ (log.tupleOf source "" last).pendingWrites := by
          apply List.mem_map_of_mem
          rw [List.mem_mergeSort, named]
          exact written
        exact task_of_mem_copied wellNamed saver forgets (chosen_mem_latestPuts chosen)
          (tuples.pendingWrites.mem_iff.mp pending)

theorem sameReading_iff
    (saver : CoreRedisCheckpointSaver Object)
    (readable : ∀ call ∈ calls, call.Readable)
    (source : String)
    (empty : ThreadEmpty target (saver.run calls))
    (checkpointNs : String)
    (askable : AskableId requested) :
    SameReading
        (getTuple (saver.copyThread source target (saver.run calls)).1 source checkpointNs requested)
        (getTuple (saver.copyThread source target (saver.run calls)).1 target checkpointNs
          requested) ↔
      Option.Rel SameTuple ((saver.history calls).getTuple source checkpointNs requested)
        ((copiedLog saver target (saver.history calls)
          (listedItems (saver.history calls) source)).getTuple target checkpointNs requested) := by
  have holds := holdsLog_run saver readable
  have forgets := forgets_of_threadEmpty holds.represents empty
  have after := (copyThread_eq holds saver source target).2
  -- The source is read as before: it is another thread, or there was nothing to copy.
  have before : (copiedLog saver target (saver.history calls)
      (listedItems (saver.history calls) source)).getTuple source checkpointNs requested =
        (saver.history calls).getTuple source checkpointNs requested := by
    by_cases apart : source = target
    · subst apart
      rw [listedItems, forgets.puts]
      rfl
    · exact getTuple_copiedLog_other holds.wellNamed saver apart checkpointNs requested
  rw [getTuple_eq after.represents after.wellNamed source checkpointNs askable,
    getTuple_eq after.represents after.wellNamed target checkpointNs askable, before]
  constructor
  · rintro ⟨found, copied, ⟨⟩, ⟨⟩, same⟩
    exact same
  · intro same
    exact ⟨_, _, rfl, rfl, same⟩

/-- After a copy into an empty thread both are read alike exactly if the source uses the empty
namespace only and its writes have no other task than `copied`. -/
theorem thread_copy_faithful_iff
    {saver : CoreRedisCheckpointSaver Object}
    (reserved : ∀ channel index, saver.writesIdxMap channel = some index → index < 0)
    (settled : ∀ extra metadata, saver.checkpointMetadata saver.noExtra
      (saver.checkpointMetadata extra metadata) = saver.checkpointMetadata extra metadata)
    {calls : List (SaverCall Object)}
    (readable : ∀ call ∈ calls, call.Readable)
    (source : String)
    {target : String}
    (empty : ThreadEmpty target (saver.run calls)) :
    (∀ checkpointNs requested, AskableId requested →
      SameReading
        (getTuple (saver.copyThread source target (saver.run calls)).1 source checkpointNs requested)
        (getTuple (saver.copyThread source target (saver.run calls)).1 target checkpointNs
          requested)) ↔
      CopyKeeps (saver.history calls) source := by
  have holds := holdsLog_run saver readable
  have forgets := forgets_of_threadEmpty holds.represents empty
  constructor
  · intro same
    exact copyKeeps_of_same holds.wellNamed saver forgets fun checkpointNs requested askable =>
      (sameReading_iff saver readable source empty checkpointNs askable).mp
        (same checkpointNs requested askable)
  · intro keeps checkpointNs requested askable
    exact (sameReading_iff saver readable source empty checkpointNs askable).mpr
      (sameReading_copied reserved settled holds.wellNamed (wellIndexed_history saver calls) forgets
        (fun put member => metadata_of_history member) keeps checkpointNs requested)

/-! ## Threads that no call names -/

/-- The thread of a call. -/
def SaverCall.threadId : SaverCall Object → String
  | .put config _ _ _ => config.threadId
  | .putWrites config _ _ _ => config.threadId
  | .deleteThread threadId => threadId

theorem putCommands_key
    {saver : CoreRedisCheckpointSaver Object}
    {config : CheckpointConfig Object}
    {checkpoint : Checkpoint Object}
    {metadata : Object}
    {newVersions : ChannelVersions}
    {sequence : Nat}
    {command : Command (List Char) (StoredItem Object)}
    (member : command ∈ saver.putCommands config checkpoint metadata newVersions sequence) :
    threadPrefix config.threadId <+: command.key ∨ command.key = threadsKey := by
  simp only [putCommands, List.mem_append, List.mem_map, List.mem_cons, List.not_mem_nil,
    or_false] at member
  rcases member with ⟨entry, _, rfl⟩ | rfl | rfl | rfl | rfl
  · exact Or.inl (threadPrefix_blobKey _ _ _ _)
  · exact Or.inl (threadPrefix_checkpointKey _ _ _)
  · exact Or.inl (threadPrefix_indexKey _ _)
  · exact Or.inr rfl
  · exact Or.inl ((SaverKey.threadPrefix_prefix_iff _ (.namespaces config.threadId)).mpr rfl)

theorem serve_apply_other
    (saver : CoreRedisCheckpointSaver Object)
    {threadId : String}
    (other : call.threadId ≠ threadId)
    (db : CheckpointDb Object)
    {key : List Char}
    (owned : threadPrefix threadId <+: key) :
    (saver.serve call db).1 key = db key := by
  have apart : ∀ used, threadPrefix call.threadId <+: used → used ≠ key := by
    rintro used starts rfl
    exact other (threadPrefix_inj starts owned)
  cases call with
  | put config checkpoint metadata newVersions =>
      simp only [serve, CoreRedisCheckpointSaver.put]
      have counter : sequenceKey config.threadId config.checkpointNs ≠ key :=
        apart _ ((SaverKey.threadPrefix_prefix_iff _
          (.sequence config.threadId config.checkpointNs)).mpr rfl)
      split
      · rfl
      · next counted counts =>
          rw [execute_of_forall_ne]
          · unfold incr at counts
            split at counts <;> cases counts <;> exact Function.update_of_ne (Ne.symm counter) _ _
          · intro command member
            rcases putCommands_key member with own | names
            · exact apart _ own
            · rw [names]
              exact Ne.symm (ne_threadsKey owned)
  | putWrites config writes taskId taskPath =>
      simp only [serve, CoreRedisCheckpointSaver.putWrites]
      split
      · rfl
      · next checkpointId _ =>
          apply execute_of_forall_ne
          intro command member
          obtain ⟨entry, _, rfl⟩ := List.mem_map.mp member
          have used := apart _
            (threadPrefix_writesKey config.threadId config.checkpointNs checkpointId)
          simp only
          split <;> exact used
  | deleteThread deleted =>
      have different : deleted ≠ threadId := other
      have same := deleteThread_apply deleted db (ne_threadsKey owned)
      rw [if_neg fun starts => different (threadPrefix_inj starts owned)] at same
      exact same

theorem threadEmpty_run
    (saver : CoreRedisCheckpointSaver Object)
    {threadId : String}
    (others : ∀ call ∈ calls, call.threadId ≠ threadId) :
    ThreadEmpty threadId (saver.run calls) := by
  induction calls using List.reverseRecOn with
  | nil =>
      exact fun _ _ => rfl
  | append_singleton earlier call ih =>
      intro key owned
      have before := ih fun other member =>
        others other (List.mem_append_left _ member)
      rw [run, List.foldl_concat]
      change (saver.serve call (saver.run earlier)).1 key = none
      rw [serve_apply_other saver (others call (by simp)) _ owned]
      exact before key owned

namespace CheckpointSample

theorem reserved_saver
    (channel : String)
    (index : Int)
    (special : saver.writesIdxMap channel = some index) :
    index < 0 := by
  simp only [saver, List.lookup] at special
  split at special
  · cases special
    decide
  split at special
  · cases special
    decide
  split at special
  · cases special
    decide
  split at special
  · cases special
    decide
  · cases special

/-- A write pending on a checkpoint. -/
def writeOf (checkpointId taskId : String) : SaverCall Nat :=
  .putWrites { threadId := "t", checkpointId := some checkpointId, extra := 0 } [("x", 1)] taskId ""

theorem readable_written :
    ∀ call ∈ [putOf "c", writeOf "c" "task"], call.Readable := by
  simp [putOf, writeOf, SaverCall.Readable, ReadableId]

theorem threadEmpty_written :
    ThreadEmpty "u" (saver.run [putOf "c", writeOf "c" "task"]) :=
  threadEmpty_run saver (by simp [putOf, writeOf, SaverCall.threadId])

end CheckpointSample

theorem plain_thread_is_copied :
    SameReading
      (getTuple (CheckpointSample.saver.copyThread "t" "u"
        (CheckpointSample.saver.run [CheckpointSample.putOf "c"])).1 "t" "" none)
      (getTuple (CheckpointSample.saver.copyThread "t" "u"
        (CheckpointSample.saver.run [CheckpointSample.putOf "c"])).1 "u" "" none) :=
  (thread_copy_faithful_iff CheckpointSample.reserved_saver (fun _ _ => rfl)
    (by simp [CheckpointSample.putOf, SaverCall.Readable, ReadableId]) "t"
    (threadEmpty_run _ (by simp [CheckpointSample.putOf, SaverCall.threadId]))).mpr
      ⟨fun checkpointNs elsewhere => by
          simp [history, record, CheckpointSample.putOf, SaverLog.put, SaverLog.empty, elsewhere],
        fun put _ write written => by
          simp [history, record, CheckpointSample.putOf, SaverLog.put, SaverLog.empty] at written⟩
      "" none ⟨nofun, nofun⟩

/-- A pending write comes out of a copy with another task. -/
theorem copy_renames_tasks :
    ¬∀ (calls : List (SaverCall Nat)) (source target : String),
      (∀ call ∈ calls, call.Readable) → ThreadEmpty target (CheckpointSample.saver.run calls) →
        ∀ checkpointNs requested, AskableId requested →
          SameReading
            (getTuple (CheckpointSample.saver.copyThread source target
              (CheckpointSample.saver.run calls)).1 source checkpointNs requested)
            (getTuple (CheckpointSample.saver.copyThread source target
              (CheckpointSample.saver.run calls)).1 target checkpointNs requested) := by
  intro faithful
  have holds := holdsLog_run CheckpointSample.saver CheckpointSample.readable_written
  have forgets := forgets_of_threadEmpty holds.represents CheckpointSample.threadEmpty_written
  have keeps : CopyKeeps (CheckpointSample.saver.history
      [CheckpointSample.putOf "c", CheckpointSample.writeOf "c" "task"]) "t" :=
    copyKeeps_of_same holds.wellNamed CheckpointSample.saver forgets
      fun checkpointNs requested askable =>
        (sameReading_iff CheckpointSample.saver CheckpointSample.readable_written "t"
          CheckpointSample.threadEmpty_written checkpointNs askable).mp
            (faithful _ "t" "u" CheckpointSample.readable_written
              CheckpointSample.threadEmpty_written checkpointNs requested askable)
  have task := keeps.oneTask _ (List.mem_singleton.mpr rfl)
    { taskId := "task", channel := "x", value := 1, taskPath := "", index := 0 }
    (List.mem_singleton.mpr rfl)
  simp at task

end MrAgent
