import MrAgent.QuotedText
import MrAgent.RedisCommands

namespace MrAgent

open RedisCommands

/-!
# Checkpoints in Redis

`CoreRedisCheckpointSaver` of `pr_agent/distributed/checkpoint.py`. A checkpoint
is spread over a hash for itself, one text for each version of a channel, a hash
for the writes pending on it and a sorted set of the ids of its namespace. The
functions with and without `async` run the same commands and are one function
here. An encoded object is represented by the object: the serialisation is
taken to be injective.
-/

/-- `channel_versions` and `new_versions`: a dictionary, so no channel comes twice. -/
structure ChannelVersions where
  items : List (String × Int)
  distinct : (items.map Prod.fst).Nodup
deriving DecidableEq

/-- A checkpoint without its `channel_values`. -/
structure CheckpointBody (Object : Type) where
  id : String
  channelVersions : ChannelVersions
  rest : Object
deriving DecidableEq

/-- `Checkpoint`. -/
structure Checkpoint (Object : Type) where
  body : CheckpointBody Object
  channelValues : List (String × Object)
deriving DecidableEq

/-- The `configurable` of a config, and what else of it metadata is taken from. -/
structure CheckpointConfig (Object : Type) where
  threadId : String
  checkpointNs : String := ""
  checkpointId : Option String := none
  extra : Object
deriving DecidableEq

/-- The document of `_write_payload`. -/
structure StoredWrite (Object : Type) where
  taskId : String
  channel : String
  value : Object
  taskPath : String
  index : Int
deriving DecidableEq

/-- `CheckpointTuple`. Both configs of a tuple have its thread and namespace. -/
structure CheckpointTuple (Object : Type) where
  threadId : String
  checkpointNs : String
  checkpointId : String
  checkpoint : Checkpoint Object
  metadata : Object
  parentId : Option String
  pendingWrites : List (String × String × Object)
deriving DecidableEq

/-- What stands in a text or in a field of a hash. -/
inductive StoredItem (Object : Type) where
  | encoded (object : Object)
  | encodedBody (body : CheckpointBody Object)
  /-- `_EMPTY_BLOB`. -/
  | emptyBlob
  | plain (text : String)
  | write (document : StoredWrite Object)
deriving DecidableEq

/-- What a call of the saver raises. -/
inductive SaverFailure where
  | response (refused : Refusal)
  /-- `ValueError("checkpoint_id is required for writes")`. -/
  | checkpointIdRequired
  | undecodable
deriving DecidableEq

/-- The database behind the saver. -/
abbrev CheckpointDb (Object : Type) := Store (List Char) (StoredItem Object)

/-- What `langgraph.checkpoint.base` supplies. -/
structure CoreRedisCheckpointSaver (Object : Type) where
  /-- `WRITES_IDX_MAP`: the channels whose writes have an index of their own. -/
  writesIdxMap : String → Option Int
  /-- `get_checkpoint_metadata`, of the config's own entries and the metadata. -/
  checkpointMetadata : Object → Object → Object
  /-- A config that has no entry beside thread, namespace and checkpoint. -/
  noExtra : Object

/-- The truth value of an optional text: the empty text counts as none. -/
def givenId (id : Option String) : Option String :=
  id.filter (· ≠ "")

/-- `prefix`. -/
def keyPrefix : List Char :=
  "pr-agent:checkpoint".toList

/-- `_threads_key`. -/
def threadsKey : List Char :=
  keyPrefix ++ ":threads".toList

/-- `_namespaces_key`. -/
def namespacesKey (threadId : String) : List Char :=
  keyPrefix ++ ':' :: quote threadId ++ ":namespaces".toList

/-- `_base`. -/
def baseKey (threadId checkpointNs : String) : List Char :=
  keyPrefix ++ ':' :: quote threadId ++ ':' :: quote checkpointNs

/-- `_index_key`. -/
def indexKey (threadId checkpointNs : String) : List Char :=
  baseKey threadId checkpointNs ++ ":index".toList

/-- `_sequence_key`. -/
def sequenceKey (threadId checkpointNs : String) : List Char :=
  baseKey threadId checkpointNs ++ ":sequence".toList

/-- `_checkpoint_key`. -/
def checkpointKey (threadId checkpointNs checkpointId : String) : List Char :=
  baseKey threadId checkpointNs ++ ':' :: quote checkpointId

/-- `_writes_key`. -/
def writesKey (threadId checkpointNs checkpointId : String) : List Char :=
  checkpointKey threadId checkpointNs checkpointId ++ ":writes".toList

/-- `_blob_key`. -/
def blobKey (threadId checkpointNs channel : String) (version : Int) : List Char :=
  baseKey threadId checkpointNs ++ ":blob:".toList ++ quote channel ++
    ':' :: quote (toString version)

/-- The field of a write in the hash of its checkpoint. -/
def writeField (taskId : String) (index : Int) : List Char :=
  quote taskId ++ ':' :: intText index

namespace CoreRedisCheckpointSaver

variable {Object : Type}

/-- The transaction of `put`, whose `INCR` has returned a sequence number. -/
def putCommands
    (saver : CoreRedisCheckpointSaver Object)
    (config : CheckpointConfig Object)
    (checkpoint : Checkpoint Object)
    (metadata : Object)
    (newVersions : ChannelVersions)
    (sequence : Nat) :
    List (Command (List Char) (StoredItem Object)) :=
  let threadId := config.threadId
  let checkpointNs := config.checkpointNs
  let checkpointId := checkpoint.body.id
  newVersions.items.map (fun entry =>
      .set (blobKey threadId checkpointNs entry.1 entry.2)
        (match checkpoint.channelValues.lookup entry.1 with
          | some value => .encoded value
          | none => .emptyBlob)) ++
    [.hset (checkpointKey threadId checkpointNs checkpointId)
        [("checkpoint".toList, .encodedBody checkpoint.body),
          ("metadata".toList, .encoded (saver.checkpointMetadata config.extra metadata)),
          ("parent".toList, .plain ((givenId config.checkpointId).getD ""))],
      .zadd (indexKey threadId checkpointNs) checkpointId sequence,
      .sadd threadsKey threadId,
      .sadd (namespacesKey threadId) checkpointNs]

/-- `put`. The number is counted before the transaction and is used up if that fails. -/
def put
    (saver : CoreRedisCheckpointSaver Object)
    (config : CheckpointConfig Object)
    (checkpoint : Checkpoint Object)
    (metadata : Object)
    (newVersions : ChannelVersions)
    (db : CheckpointDb Object) :
    CheckpointDb Object × Option SaverFailure :=
  match incr (sequenceKey config.threadId config.checkpointNs) db with
  | .error refused => (db, some (.response refused))
  | .ok counted =>
      let executed := execute
        (saver.putCommands config checkpoint metadata newVersions counted.2) counted.1
      (executed.1, executed.2.map .response)

/-- The transaction of `put_writes`. -/
def putWritesCommands
    (saver : CoreRedisCheckpointSaver Object)
    (key : List Char)
    (writes : List (String × Object))
    (taskId taskPath : String) :
    List (Command (List Char) (StoredItem Object)) :=
  writes.zipIdx.map fun entry =>
    let writeIndex := (saver.writesIdxMap entry.1.1).getD (entry.2 : Int)
    let field := writeField taskId writeIndex
    let payload := StoredItem.write
      { taskId, channel := entry.1.1, value := entry.1.2, taskPath, index := writeIndex }
    if writeIndex < 0 then .hset key [(field, payload)] else .hsetnx key field payload

/-- `put_writes`. -/
def putWrites
    (saver : CoreRedisCheckpointSaver Object)
    (config : CheckpointConfig Object)
    (writes : List (String × Object))
    (taskId taskPath : String)
    (db : CheckpointDb Object) :
    CheckpointDb Object × Option SaverFailure :=
  match givenId config.checkpointId with
  | none => (db, some .checkpointIdRequired)
  | some checkpointId =>
      let executed := execute
        (saver.putWritesCommands (writesKey config.threadId config.checkpointNs checkpointId)
          writes taskId taskPath) db
      (executed.1, executed.2.map .response)

/-- A command that the server refuses raises. -/
def reply {Answer : Type} : Except Refusal Answer → Except SaverFailure Answer
  | .ok answer => .ok answer
  | .error refused => .error (.response refused)

/-- `_latest_id_sync`. -/
def latestId
    (db : CheckpointDb Object)
    (threadId checkpointNs : String) :
    Except SaverFailure (Option String) :=
  (reply (zrevrange db (indexKey threadId checkpointNs))).map List.head?

/-- The value of one channel: none for an empty blob or a missing one. -/
def readChannel
    (db : CheckpointDb Object)
    (threadId checkpointNs : String)
    (entry : String × Int) :
    Except SaverFailure (Option (String × Object)) :=
  match reply (get db (blobKey threadId checkpointNs entry.1 entry.2)) with
  | .ok none => .ok none
  | .ok (some (.inr .emptyBlob)) => .ok none
  | .ok (some (.inr (.encoded value))) => .ok (some (entry.1, value))
  | .ok (some _) => .error .undecodable
  | .error failure => .error failure

/-- The order of `_decode_writes`: by task path, task and index. -/
def sortsBefore (write other : StoredWrite Object) : Bool :=
  write.taskPath < other.taskPath ||
    (write.taskPath == other.taskPath &&
      (write.taskId < other.taskId ||
        (write.taskId == other.taskId && write.index ≤ other.index)))

/-- What a tuple says about a write. -/
def writeEntry (write : StoredWrite Object) : String × String × Object :=
  (write.taskId, write.channel, write.value)

/-- The document of a write. -/
def writeDocument : StoredItem Object → Except SaverFailure (StoredWrite Object)
  | .write document => .ok document
  | _ => .error .undecodable

/-- `_decode_writes`. -/
def decodeWrites
    (values : List (StoredItem Object)) :
    Except SaverFailure (List (String × String × Object)) := do
  let decoded ← values.mapM writeDocument
  .ok ((decoded.mergeSort sortsBefore).map writeEntry)

/-- `_writes_sync`. -/
def readWrites
    (db : CheckpointDb Object)
    (threadId checkpointNs checkpointId : String) :
    Except SaverFailure (List (String × String × Object)) := do
  decodeWrites (← reply (hvals db (writesKey threadId checkpointNs checkpointId)))

/-- `_build_tuple_sync` and `_tuple_from_parts`. -/
def buildTuple
    (db : CheckpointDb Object)
    (threadId checkpointNs checkpointId : String)
    (value : List (List Char × StoredItem Object)) :
    Except SaverFailure (CheckpointTuple Object) :=
  match value.lookup "checkpoint".toList, value.lookup "metadata".toList,
      (value.lookup "parent".toList).getD (.plain "") with
  | some (.encodedBody body), some (.encoded metadata), .plain parent => do
      let found ← body.channelVersions.items.mapM (readChannel db threadId checkpointNs)
      let pendingWrites ← readWrites db threadId checkpointNs checkpointId
      .ok {
        threadId, checkpointNs, checkpointId
        checkpoint := { body, channelValues := found.filterMap id }
        metadata
        parentId := givenId (some parent)
        pendingWrites }
  | _, _, _ => .error .undecodable

/-- `get_tuple`. -/
def getTuple
    (db : CheckpointDb Object)
    (threadId checkpointNs : String)
    (requested : Option String) :
    Except SaverFailure (Option (CheckpointTuple Object)) := do
  let checkpointId ← match givenId requested with
    | some checkpointId => .ok (some checkpointId)
    | none => latestId db threadId checkpointNs
  match givenId checkpointId with
  | none => .ok none
  | some checkpointId =>
      let value ← reply (hgetall db (checkpointKey threadId checkpointNs checkpointId))
      if value.isEmpty then .ok none
      else (buildTuple db threadId checkpointNs checkpointId value).map some

/-- `_list_ids_sync`. -/
def listIds
    (db : CheckpointDb Object)
    (config : Option (CheckpointConfig Object))
    (before : Option String) :
    Except SaverFailure (List (String × String × String)) := do
  let threadIds ← match config with
    | some config => .ok [config.threadId]
    | none => reply (smembers db threadsKey)
  let found ← threadIds.mapM fun threadId => do
    let namespaces ← match config with
      | some config => .ok [config.checkpointNs]
      | none => reply (smembers db (namespacesKey threadId))
    let inNamespaces ← namespaces.mapM fun checkpointNs => do
      let ids ← reply (zrevrange db (indexKey threadId checkpointNs))
      .ok ((ids.filter fun checkpointId =>
        (givenId (config.bind (·.checkpointId))).all (checkpointId = ·) &&
          (givenId before).all (checkpointId < ·)).map fun checkpointId =>
            (threadId, checkpointNs, checkpointId))
    .ok inNamespaces.flatten
  .ok found.flatten

/-- The tuples that pass the filter. A limit is looked at once an item has been taken. -/
def listTuples
    (db : CheckpointDb Object)
    (passes : Object → Bool) :
    Option Int →
    List (String × String × String) →
    Except SaverFailure (List (CheckpointTuple Object))
  | _, [] => .ok []
  | limit, (threadId, checkpointNs, checkpointId) :: rest => do
      match ← getTuple db threadId checkpointNs (some checkpointId) with
      | none => listTuples db passes limit rest
      | some item =>
          if passes item.metadata then
            let left := limit.map (· - 1)
            if left.any (· ≤ 0) then .ok [item]
            else .ok (item :: (← listTuples db passes left rest))
          else listTuples db passes limit rest

/-- `list`, read to its end. -/
def list
    (db : CheckpointDb Object)
    (config : Option (CheckpointConfig Object))
    (passes : Object → Bool)
    (before : Option String)
    (limit : Option Int) :
    Except SaverFailure (List (CheckpointTuple Object)) := do
  listTuples db passes limit (← listIds db config before)

/-- `_delete_thread_sync`: the keys that match the pattern, and the name of the thread. -/
def deleteThread
    (threadId : String)
    (db : CheckpointDb Object) :
    CheckpointDb Object × Option SaverFailure :=
  let pattern := keyPrefix ++ ':' :: quote threadId ++ ":*".toList
  let executed := execute [.srem threadsKey threadId] (deleteMatching pattern db)
  (executed.1, executed.2.map .response)

end CoreRedisCheckpointSaver

/-- A call of the saver that writes. -/
inductive SaverCall (Object : Type) where
  | put
      (config : CheckpointConfig Object)
      (checkpoint : Checkpoint Object)
      (metadata : Object)
      (newVersions : ChannelVersions)
  | putWrites
      (config : CheckpointConfig Object)
      (writes : List (String × Object))
      (taskId taskPath : String)
  | deleteThread (threadId : String)
deriving DecidableEq

namespace CoreRedisCheckpointSaver

variable {Object : Type}

/-- One call. -/
def serve
    (saver : CoreRedisCheckpointSaver Object)
    (call : SaverCall Object)
    (db : CheckpointDb Object) :
    CheckpointDb Object × Option SaverFailure :=
  match call with
  | .put config checkpoint metadata newVersions =>
      saver.put config checkpoint metadata newVersions db
  | .putWrites config writes taskId taskPath =>
      saver.putWrites config writes taskId taskPath db
  | .deleteThread threadId => deleteThread threadId db

/-- Any sequence of calls on an empty database. The caller goes on after one that raises. -/
def run
    (saver : CoreRedisCheckpointSaver Object)
    (calls : List (SaverCall Object)) :
    CheckpointDb Object :=
  calls.foldl (fun db call => (saver.serve call db).1) fun _ => none

/-- Calls one after the other, up to the first that raises. -/
def serveAll
    (saver : CoreRedisCheckpointSaver Object) :
    List (SaverCall Object) →
    CheckpointDb Object →
    CheckpointDb Object × Option SaverFailure
  | [], db => (db, none)
  | call :: rest, db =>
      let served := saver.serve call db
      match served.2 with
      | some failure => (served.1, some failure)
      | none => saver.serveAll rest served.1

/-- What `_copy_thread_sync` calls for one item. -/
def copyCalls
    (saver : CoreRedisCheckpointSaver Object)
    (targetThreadId : String)
    (item : CheckpointTuple Object) :
    List (SaverCall Object) :=
  let config : CheckpointConfig Object :=
    { threadId := targetThreadId
      checkpointNs := item.checkpointNs
      checkpointId := item.parentId
      extra := saver.noExtra }
  let saved : CheckpointConfig Object :=
    { config with checkpointId := some item.checkpoint.body.id }
  .put config item.checkpoint item.metadata item.checkpoint.body.channelVersions ::
    if item.pendingWrites.isEmpty then []
    else [.putWrites saved (item.pendingWrites.map Prod.snd) "copied" ""]

/-- `_copy_thread_sync`. The config names a thread only, so its namespace is the empty one. -/
def copyThread
    (saver : CoreRedisCheckpointSaver Object)
    (sourceThreadId targetThreadId : String)
    (db : CheckpointDb Object) :
    CheckpointDb Object × Option SaverFailure :=
  match list db (some { threadId := sourceThreadId, extra := saver.noExtra })
      (fun _ => true) none none with
  | .error failure => (db, some failure)
  | .ok items => saver.serveAll (items.reverse.flatMap (saver.copyCalls targetThreadId)) db

end CoreRedisCheckpointSaver

end MrAgent
