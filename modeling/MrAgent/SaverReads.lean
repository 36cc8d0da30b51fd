import MrAgent.FallibleProgram
import MrAgent.SaverRefinement

namespace MrAgent

open FallibleProgram RedisCommands CoreRedisCheckpointSaver

/-!
# Reading the log back from the keys

A tuple is gathered from the hash of its checkpoint, the blobs of its versions
and the hash of its writes. Where the keys hold the log, the parts are those of
one put.
-/

variable {Object : Type}

/-- A checkpoint id that can be put and read back. -/
def ReadableId (checkpointId : String) : Prop :=
  checkpointId ≠ "" ∧ checkpointId ≠ "index" ∧ checkpointId ≠ "sequence"

/-- A checkpoint id that can be asked for. The empty one asks for the last put. -/
def AskableId (requested : Option String) : Prop :=
  requested ≠ some "index" ∧ requested ≠ some "sequence"

variable {checkpointId : String}

theorem givenId_some
    (given : checkpointId ≠ "") :
    givenId (some checkpointId) = some checkpointId := by
  simp [givenId, given]

variable {requested : Option String}

theorem ne_of_givenId
    (given : givenId requested = some checkpointId) :
    requested = some checkpointId ∧ checkpointId ≠ "" := by
  simpa [givenId, Option.filter_eq_some_iff] using given

variable {log : SaverLog Object} {db : CheckpointDb Object}

theorem readChannel_eq
    (represents : Represents log (cells db))
    (threadId checkpointNs : String)
    (entry : String × Int) :
    readChannel db threadId checkpointNs entry =
      .ok ((versionValue (log.puts threadId checkpointNs) entry).map fun value =>
        (entry.1, value)) := by
  have held := represents.blob threadId checkpointNs entry.1 entry.2
  change db (blobKey threadId checkpointNs entry.1 entry.2) = _ at held
  rw [readChannel, RedisCommands.get, held, versionValue]
  cases lastWriter (log.puts threadId checkpointNs) entry with
  | none =>
      rfl
  | some put =>
      simp only [Option.map_some, Option.bind_some, blobItem]
      cases put.channelValues.lookup entry.1 <;> rfl

theorem readWrites_eq
    (represents : Represents log (cells db))
    (threadId checkpointNs checkpointId : String) :
    readWrites db threadId checkpointNs checkpointId =
      .ok (((log.writes threadId checkpointNs checkpointId).mergeSort sortsBefore).map
        writeEntry) := by
  have held := represents.writes threadId checkpointNs checkpointId
  change db (writesKey threadId checkpointNs checkpointId) = _ at held
  have documents : ∀ kept : List (StoredWrite Object),
      decodeWrites (kept.map .write) = .ok ((kept.mergeSort sortsBefore).map writeEntry) := by
    intro kept
    have decoded : (kept.map StoredItem.write).mapM writeDocument = .ok kept := by
      have each : ∀ write ∈ kept, (writeDocument ∘ StoredItem.write) write = .ok (id write) :=
        fun _ _ => rfl
      rw [List.mapM_map, mapM_eq_ok each, List.map_id]
    rw [decodeWrites, decoded]
    rfl
  rw [readWrites, hvals, hgetall, held]
  cases kept : log.writes threadId checkpointNs checkpointId with
  | nil =>
      exact documents []
  | cons first rest =>
      have values : (writeFields (first :: rest)).map Prod.snd =
          (first :: rest).map StoredItem.write := by
        simp [writeFields]
      change decodeWrites ((writeFields (first :: rest)).map Prod.snd) = _
      rw [values]
      exact documents (first :: rest)

theorem lookup_three
    {Item : Type}
    {first second third : List Char}
    (names : [first, second, third].Nodup)
    (x y z : Item) :
    [(first, x), (second, y), (third, z)].lookup first = some x ∧
      [(first, x), (second, y), (third, z)].lookup second = some y ∧
        [(first, x), (second, y), (third, z)].lookup third = some z := by
  simp only [List.nodup_cons, List.mem_cons, List.not_mem_nil, or_false, not_or,
    not_false_eq_true, List.nodup_nil, and_true] at names
  obtain ⟨⟨firstSecond, firstThird⟩, secondThird⟩ := names
  have secondFirst : (second == first) = false := beq_eq_false_iff_ne.mpr (Ne.symm firstSecond)
  have thirdFirst : (third == first) = false := beq_eq_false_iff_ne.mpr (Ne.symm firstThird)
  have thirdSecond : (third == second) = false := beq_eq_false_iff_ne.mpr (Ne.symm secondThird)
  simp [List.lookup, secondFirst, thirdFirst, thirdSecond]

theorem givenId_getD
    {parentId : Option String}
    (normal : givenId parentId = parentId) :
    givenId (some (parentId.getD "")) = parentId := by
  cases parentId with
  | none =>
      rfl
  | some parent =>
      exact normal

theorem buildTuple_eq
    (represents : Represents log (cells db))
    (threadId checkpointNs : String)
    {put : PutRecord Object}
    (normal : givenId put.parentId = put.parentId) :
    buildTuple db threadId checkpointNs put.body.id (recordFields put) =
      .ok (log.tupleOf threadId checkpointNs put) := by
  obtain ⟨body, metadata, parentField⟩ := lookup_three recordFields_nodup
    (StoredItem.encodedBody put.body) (.encoded put.metadata) (.plain (put.parentId.getD ""))
  have channels : put.body.channelVersions.items.mapM (readChannel db threadId checkpointNs) = _ :=
    mapM_eq_ok fun entry _ => readChannel_eq represents threadId checkpointNs entry
  rw [buildTuple, recordFields, body, metadata, parentField]
  simp only [Option.getD_some]
  rw [channels, readWrites_eq represents, givenId_getD normal]
  simp only [bind, Except.bind, List.filterMap_map, Function.id_comp]
  rfl

/-- Every put has an id that can be read back, and no empty text for a parent. -/
def WellNamed (log : SaverLog Object) : Prop :=
  ∀ threadId checkpointNs, ∀ put ∈ log.puts threadId checkpointNs,
    ReadableId put.body.id ∧ givenId put.parentId = put.parentId

theorem readCheckpoint
    (represents : Represents log (cells db))
    (wellNamed : WellNamed log)
    (threadId checkpointNs : String)
    (readable : ReadableId checkpointId) :
    getTuple db threadId checkpointNs (some checkpointId) =
      .ok ((lastPut (log.puts threadId checkpointNs) checkpointId).map
        (log.tupleOf threadId checkpointNs)) := by
  have held := represents.checkpoint threadId checkpointNs
    ⟨checkpointId, readable.2.1, readable.2.2⟩
  change db (checkpointKey threadId checkpointNs checkpointId) = _ at held
  rw [getTuple, givenId_some readable.1]
  simp only [bind, Except.bind, givenId_some readable.1]
  rw [hgetall, held]
  cases found : lastPut (log.puts threadId checkpointNs) checkpointId with
  | none =>
      rfl
  | some put =>
      have named : put.body.id = checkpointId := by
        simpa using List.find?_some found
      have normal := (wellNamed threadId checkpointNs put (List.mem_of_find?_eq_some found)).2
      have built := buildTuple_eq represents threadId checkpointNs normal
      rw [named] at built
      simp only [Option.map_some, reply]
      rw [built]
      rfl

theorem latestId_eq
    (represents : Represents log (cells db))
    (threadId checkpointNs : String) :
    latestId db threadId checkpointNs =
      .ok ((log.puts threadId checkpointNs).head?.map (·.body.id)) := by
  have held := represents.index threadId checkpointNs
  change db (indexKey threadId checkpointNs) = _ at held
  rw [latestId, zrevrange, held]
  cases log.puts threadId checkpointNs <;> rfl

theorem getTuple_eq
    (represents : Represents log (cells db))
    (wellNamed : WellNamed log)
    (threadId checkpointNs : String)
    (askable : AskableId requested) :
    getTuple db threadId checkpointNs requested =
      .ok (log.getTuple threadId checkpointNs requested) := by
  cases given : givenId requested with
  | some checkpointId =>
      obtain ⟨asked, nonempty⟩ := ne_of_givenId given
      subst asked
      have readable : ReadableId checkpointId :=
        ⟨nonempty, fun same => askable.1 (same ▸ rfl), fun same => askable.2 (same ▸ rfl)⟩
      rw [readCheckpoint represents wellNamed threadId checkpointNs readable, SaverLog.getTuple,
        SaverLog.chosen, given]
  | none =>
      rw [SaverLog.getTuple, SaverLog.chosen, given]
      rw [getTuple, given]
      simp only [latestId_eq represents, bind, Except.bind]
      cases puts : log.puts threadId checkpointNs with
      | nil =>
          rfl
      | cons last earlier =>
          have member : last ∈ log.puts threadId checkpointNs := by
            rw [puts]
            exact List.mem_cons_self
          have readable := (wellNamed threadId checkpointNs last member).1
          have read := readCheckpoint represents wellNamed threadId checkpointNs readable
          rw [getTuple, givenId_some readable.1] at read
          simp only [bind, Except.bind, givenId_some readable.1] at read
          simp only [List.head?_cons, Option.map_some, givenId_some readable.1]
          rw [read, puts]
          simp [lastPut]

end MrAgent
