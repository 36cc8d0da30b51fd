import MrAgent.SaverRuns

namespace MrAgent

open RedisCommands CoreRedisCheckpointSaver

/-!
# The checkpoint store refines the saver

A reader of the database gets what the log of the calls says, and deleting a
thread takes its data and nothing else.
-/

variable {Object : Type}

/-- Two puts that write one version of a channel write one value. -/
def OneValue (calls : List (SaverCall Object)) : Prop :=
  ∀ config checkpoint metadata newVersions other otherCheckpoint otherMetadata otherVersions,
    SaverCall.put config checkpoint metadata newVersions ∈ calls →
    SaverCall.put other otherCheckpoint otherMetadata otherVersions ∈ calls →
    config.threadId = other.threadId →
    config.checkpointNs = other.checkpointNs →
    ∀ entry ∈ newVersions.items, entry ∈ otherVersions.items →
      checkpoint.channelValues.lookup entry.1 = otherCheckpoint.channelValues.lookup entry.1

variable {entry : String × Int}

theorem lookup_filterMap
    {items : List (String × Int)}
    (distinct : (items.map Prod.fst).Nodup)
    (value : String × Int → Option Object)
    (member : entry ∈ items) :
    (items.filterMap fun entry => (value entry).map fun value => (entry.1, value)).lookup entry.1 =
      value entry := by
  induction items with
  | nil =>
      cases member
  | cons first rest ih =>
      rw [List.map_cons, List.nodup_cons] at distinct
      have absent : ∀ other ∈ rest, other.1 ≠ first.1 := by
        intro other inside same
        exact distinct.1 (same ▸ List.mem_map_of_mem inside)
      rcases List.mem_cons.mp member with rfl | later
      · cases given : value entry with
        | some object =>
            simp [given]
        | none =>
            simp only [List.filterMap_cons, given, Option.map_none]
            rw [List.lookup_eq_none_iff]
            intro found inside
            obtain ⟨other, inRest, made⟩ := List.mem_filterMap.mp inside
            obtain ⟨object, _, rfl⟩ := Option.map_eq_some_iff.mp made
            simpa using (absent other inRest).symm
      · have tail := ih distinct.2 later
        cases given : value first with
        | some object =>
            have other : (entry.1 == first.1) = false :=
              beq_eq_false_iff_ne.mpr (absent entry later)
            simp only [List.filterMap_cons, given, Option.map_some, List.lookup_cons, other]
            exact tail
        | none =>
            simp only [List.filterMap_cons, given, Option.map_none]
            exact tail

variable {puts : List (PutRecord Object)}

theorem versionValue_eq
    (once : ∀ put ∈ puts, ∀ other ∈ puts, entry ∈ put.newVersions.items →
      entry ∈ other.newVersions.items →
        put.channelValues.lookup entry.1 = other.channelValues.lookup entry.1)
    {writer : PutRecord Object}
    (member : writer ∈ puts)
    (writes : entry ∈ writer.newVersions.items) :
    versionValue puts entry = writer.channelValues.lookup entry.1 := by
  cases found : lastWriter puts entry with
  | none =>
      have silent := List.find?_eq_none.mp found writer member
      simp [writes] at silent
  | some last =>
      have lastWrites : entry ∈ last.newVersions.items := by
        simpa using List.find?_some found
      rw [versionValue, found, Option.bind_some]
      exact once last (List.mem_of_find?_eq_some found) writer member lastWrites writes

theorem versionValue_eq_none
    (silent : ∀ put ∈ puts, entry ∉ put.newVersions.items) :
    versionValue puts entry = none := by
  have unwritten : lastWriter puts entry = none := by
    rw [lastWriter, List.find?_eq_none]
    intro put member
    simpa using silent put member
  rw [versionValue, unwritten]
  rfl

/-! ## What a reader of a thread looks at -/

variable (threadId checkpointNs : String)

theorem threadPrefix_baseKey :
    threadPrefix threadId <+: baseKey threadId checkpointNs :=
  ⟨quote checkpointNs, by simp [threadPrefix, baseKey]⟩

theorem threadPrefix_indexKey :
    threadPrefix threadId <+: indexKey threadId checkpointNs :=
  (threadPrefix_baseKey threadId checkpointNs).trans (List.prefix_append _ _)

theorem threadPrefix_checkpointKey
    (threadId checkpointNs checkpointId : String) :
    threadPrefix threadId <+: checkpointKey threadId checkpointNs checkpointId :=
  (threadPrefix_baseKey threadId checkpointNs).trans (List.prefix_append _ _)

theorem threadPrefix_writesKey
    (threadId checkpointNs checkpointId : String) :
    threadPrefix threadId <+: writesKey threadId checkpointNs checkpointId :=
  (threadPrefix_checkpointKey threadId checkpointNs checkpointId).trans (List.prefix_append _ _)

theorem threadPrefix_blobKey
    (threadId checkpointNs channel : String)
    (version : Int) :
    threadPrefix threadId <+: blobKey threadId checkpointNs channel version := by
  rw [blobKey, List.append_assoc, List.append_assoc]
  exact (threadPrefix_baseKey threadId checkpointNs).trans (List.prefix_append _ _)

theorem getTuple_congr
    {db other : CheckpointDb Object}
    {threadId : String}
    (same : ∀ key, threadPrefix threadId <+: key → db key = other key)
    (checkpointNs : String)
    (requested : Option String) :
    getTuple db threadId checkpointNs requested = getTuple other threadId checkpointNs requested := by
  have latest : latestId db threadId checkpointNs = latestId other threadId checkpointNs := by
    rw [latestId, latestId, zrevrange, zrevrange, same _ (threadPrefix_indexKey _ _)]
  have channels : readChannel db threadId checkpointNs =
      readChannel other threadId checkpointNs := by
    funext entry
    rw [readChannel, readChannel, RedisCommands.get, RedisCommands.get,
      same _ (threadPrefix_blobKey _ _ _ _)]
  have writes : ∀ checkpointId, readWrites db threadId checkpointNs checkpointId =
      readWrites other threadId checkpointNs checkpointId := by
    intro checkpointId
    rw [readWrites, readWrites, hvals, hvals, hgetall, hgetall,
      same _ (threadPrefix_writesKey _ _ _)]
  have records : ∀ checkpointId, hgetall db (checkpointKey threadId checkpointNs checkpointId) =
      hgetall other (checkpointKey threadId checkpointNs checkpointId) := by
    intro checkpointId
    rw [hgetall, hgetall, same _ (threadPrefix_checkpointKey _ _ _)]
  have built : buildTuple db threadId checkpointNs = buildTuple other threadId checkpointNs := by
    funext checkpointId value
    simp only [buildTuple, channels, writes]
  simp only [getTuple, latest, records, built]

/-- Deleting a thread takes the keys of the thread and its name, and nothing else. -/
structure DeletesThread (threadId : String) (db : CheckpointDb Object) : Prop where
  gone : ∀ key, threadPrefix threadId <+: key → (deleteThread threadId db).1 key = none
  kept : ∀ key, ¬threadPrefix threadId <+: key → key ≠ threadsKey →
    (deleteThread threadId db).1 key = db key
  names : ∀ names, smembers db threadsKey = .ok names →
    smembers (deleteThread threadId db).1 threadsKey = .ok (names.filter (· ≠ threadId))
  others : ∀ other, other ≠ threadId → ∀ checkpointNs requested,
    getTuple (deleteThread threadId db).1 other checkpointNs requested =
      getTuple db other checkpointNs requested

theorem ne_threadsKey
    {threadId : String}
    {key : List Char}
    (starts : threadPrefix threadId <+: key) :
    key ≠ threadsKey := by
  intro same
  subst same
  exact threadPrefix_threadsKey threadId starts

theorem smembers_deleteThread
    (threadId : String)
    {db : CheckpointDb Object}
    {names : List String}
    (held : smembers db threadsKey = .ok names) :
    smembers (deleteThread threadId db).1 threadsKey = .ok (names.filter (· ≠ threadId)) := by
  rw [smembers] at held ⊢
  rw [deleteThread_threadsKey]
  cases stored : db threadsKey with
  | none =>
      rw [stored] at held
      cases held
      rfl
  | some value =>
      rw [stored] at held
      cases value with
      | set members =>
          cases held
          simp only [Command.after, Command.effect]
          split
          · next none =>
              split at none
              · next empty =>
                  rw [empty]
              · cases none
          · next remaining some =>
              split at some
              · cases some
              · cases some
                rfl
          · next other notSet some =>
              split at some
              · cases some
              · cases some
                exact absurd rfl (notSet _)
      | _ => cases held

theorem deletesThread
    (threadId : String)
    (db : CheckpointDb Object) :
    DeletesThread threadId db where
  gone := fun key starts => by
    rw [deleteThread_apply threadId db (ne_threadsKey starts), if_pos starts]
  kept := fun key apart other => by
    rw [deleteThread_apply threadId db other, if_neg apart]
  names := fun _ held => smembers_deleteThread threadId held
  others := by
    intro other different checkpointNs requested
    apply getTuple_congr
    intro key owned
    rw [deleteThread_apply threadId db (ne_threadsKey owned), if_neg]
    intro starts
    exact different (threadPrefix_inj owned starts)

/-! ## Runs -/

/-- Where ids can be read back, a reader gets the last put or the requested one with its writes and
values, and a deletion takes one thread. -/
theorem checkpoint_store_refines_saver
    (saver : CoreRedisCheckpointSaver Object)
    {calls : List (SaverCall Object)}
    (readable : ∀ call ∈ calls, call.Readable)
    (once : OneValue calls) :
    (∀ threadId checkpointNs requested, AskableId requested →
      getTuple (saver.run calls) threadId checkpointNs requested =
        .ok ((saver.history calls).getTuple threadId checkpointNs requested)) ∧
    (∀ threadId checkpointNs, ∀ put ∈ (saver.history calls).puts threadId checkpointNs,
      ∀ entry ∈ put.body.channelVersions.items,
        (∀ writer ∈ (saver.history calls).puts threadId checkpointNs,
          entry ∈ writer.newVersions.items →
            ((saver.history calls).tupleOf threadId checkpointNs put).checkpoint.channelValues.lookup
              entry.1 = writer.channelValues.lookup entry.1) ∧
        ((∀ writer ∈ (saver.history calls).puts threadId checkpointNs,
          entry ∉ writer.newVersions.items) →
            ((saver.history calls).tupleOf threadId checkpointNs put).checkpoint.channelValues.lookup
              entry.1 = none)) ∧
    ∀ threadId, DeletesThread threadId (saver.run calls) := by
  have holds := holdsLog_run saver readable
  refine ⟨?_, ?_, fun threadId => deletesThread threadId _⟩
  · intro threadId checkpointNs requested askable
    exact getTuple_eq holds.represents holds.wellNamed threadId checkpointNs askable
  · intro threadId checkpointNs put _ entry versioned
    have read := lookup_filterMap put.body.channelVersions.distinct
      (versionValue ((saver.history calls).puts threadId checkpointNs)) versioned
    have onePut : ∀ first ∈ (saver.history calls).puts threadId checkpointNs,
        ∀ second ∈ (saver.history calls).puts threadId checkpointNs,
          entry ∈ first.newVersions.items → entry ∈ second.newVersions.items →
            first.channelValues.lookup entry.1 = second.channelValues.lookup entry.1 := by
      intro first firstPut second secondPut firstWrites secondWrites
      obtain ⟨config, checkpoint, metadata, newVersions, called, rfl, rfl, rfl⟩ :=
        put_of_history saver firstPut
      obtain ⟨other, otherCheckpoint, otherMetadata, otherVersions, otherCalled, thread, space,
        rfl⟩ := put_of_history saver secondPut
      exact once _ _ _ _ _ _ _ _ called otherCalled thread.symm space.symm entry firstWrites
        secondWrites
    constructor
    · intro writer member writes
      exact read.trans (versionValue_eq onePut member writes)
    · intro silent
      exact read.trans (versionValue_eq_none silent)

namespace CheckpointSample

/-- The reserved channels of the checkpoint library, and metadata taken as they are. -/
def saver : CoreRedisCheckpointSaver Nat where
  writesIdxMap := fun channel =>
    [("__error__", -1), ("__scheduled__", -2), ("__interrupt__", -3), ("__resume__", -4)].lookup
      channel
  checkpointMetadata := fun _ metadata => metadata
  noExtra := 0

/-- A put of a checkpoint with one channel. -/
def putOf (checkpointId : String) : SaverCall Nat :=
  .put { threadId := "t", extra := 0 }
    { body := { id := checkpointId, channelVersions := ⟨[("a", 1)], by simp⟩, rest := 0 }
      channelValues := [("a", 5)] }
    7 ⟨[("a", 1)], by simp⟩

theorem oneValue_putOf
    (checkpointId : String) :
    OneValue [putOf checkpointId] := by
  intro _ _ _ _ _ _ _ _ first second _ _ entry _ _
  simp only [putOf, List.mem_singleton, SaverCall.put.injEq] at first second
  rw [first.2.1, second.2.1]

end CheckpointSample

theorem put_is_read_back :
    getTuple (CheckpointSample.saver.run [CheckpointSample.putOf "c"]) "t" "" none =
      .ok ((CheckpointSample.saver.history [CheckpointSample.putOf "c"]).getTuple "t" "" none) :=
  (checkpoint_store_refines_saver CheckpointSample.saver
    (by simp [CheckpointSample.putOf, SaverCall.Readable, ReadableId])
    (CheckpointSample.oneValue_putOf "c")).1 "t" "" none ⟨nofun, nofun⟩

/-- A checkpoint called `index` takes the key of the index: its own put fails, and every read. -/
theorem index_id_breaks_reading :
    ¬∀ calls : List (SaverCall Nat), OneValue calls → ∀ threadId checkpointNs requested,
      getTuple (CheckpointSample.saver.run calls) threadId checkpointNs requested =
        .ok ((CheckpointSample.saver.history calls).getTuple threadId checkpointNs requested) := by
  intro refines
  have read := refines _ (CheckpointSample.oneValue_putOf "index") "t" "" none
  have refused : (getTuple (CheckpointSample.saver.run [CheckpointSample.putOf "index"])
      "t" "" none).toOption = none := by
    decide +kernel
  rw [read] at refused
  cases refused

end MrAgent
