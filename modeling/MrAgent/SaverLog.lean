import MrAgent.CheckpointStore

namespace MrAgent

/-!
# What the checkpoint saver is for

A thread has, in each namespace, the checkpoints that were put there since the
thread was last deleted, and for each checkpoint id the writes pending on it. A
task has one write at each index: the first one stays, and at the reserved
negative indices the last one does.
-/

/-- One `put`. -/
structure PutRecord (Object : Type) where
  body : CheckpointBody Object
  channelValues : List (String × Object)
  metadata : Object
  parentId : Option String
  newVersions : ChannelVersions
deriving DecidableEq

/-- What has been put, the newest first, and what has been written. -/
structure SaverLog (Object : Type) where
  puts : String → String → List (PutRecord Object)
  writes : String → String → String → List (StoredWrite Object)

variable {Object : Type}

/-- Two writes are for one place. -/
def StoredWrite.sameSlot (write other : StoredWrite Object) : Bool :=
  other.taskId == write.taskId && other.index == write.index

/-- The writes after one more. -/
def keepWrite
    (kept : List (StoredWrite Object))
    (write : StoredWrite Object) :
    List (StoredWrite Object) :=
  if kept.any write.sameSlot then
    if write.index < 0 then kept.map fun other => if write.sameSlot other then write else other
    else kept
  else kept ++ [write]

/-- The writes of one call, each with its index. -/
def CoreRedisCheckpointSaver.indexedWrites
    (saver : CoreRedisCheckpointSaver Object)
    (writes : List (String × Object))
    (taskId taskPath : String) :
    List (StoredWrite Object) :=
  writes.zipIdx.map fun entry =>
    { taskId, channel := entry.1.1, value := entry.1.2, taskPath
      index := (saver.writesIdxMap entry.1.1).getD (entry.2 : Int) }

/-- The last put of an id. -/
def lastPut
    (puts : List (PutRecord Object))
    (checkpointId : String) :
    Option (PutRecord Object) :=
  puts.find? fun put => put.body.id = checkpointId

/-- The last put that wrote a version of a channel. -/
def lastWriter
    (puts : List (PutRecord Object))
    (entry : String × Int) :
    Option (PutRecord Object) :=
  puts.find? fun put => entry ∈ put.newVersions.items

/-- What a version of a channel was given. -/
def versionValue
    (puts : List (PutRecord Object))
    (entry : String × Int) :
    Option Object :=
  (lastWriter puts entry).bind fun put => put.channelValues.lookup entry.1

namespace SaverLog

/-- Nothing has been put or written. -/
def empty : SaverLog Object where
  puts := fun _ _ => []
  writes := fun _ _ _ => []

/-- A put. -/
def put
    (log : SaverLog Object)
    (threadId checkpointNs : String)
    (record : PutRecord Object) :
    SaverLog Object where
  puts := fun thread space =>
    if thread = threadId ∧ space = checkpointNs then record :: log.puts threadId checkpointNs
    else log.puts thread space
  writes := log.writes

/-- Some writes pending on a checkpoint. -/
def putWrites
    (log : SaverLog Object)
    (threadId checkpointNs checkpointId : String)
    (writes : List (StoredWrite Object)) :
    SaverLog Object where
  puts := log.puts
  writes := fun thread space id =>
    if thread = threadId ∧ space = checkpointNs ∧ id = checkpointId then
      writes.foldl keepWrite (log.writes threadId checkpointNs checkpointId)
    else log.writes thread space id

/-- A thread is forgotten. -/
def deleteThread
    (log : SaverLog Object)
    (threadId : String) :
    SaverLog Object where
  puts := fun thread space => if thread = threadId then [] else log.puts thread space
  writes := fun thread space id => if thread = threadId then [] else log.writes thread space id

/-- A checkpoint as it is read: its channels have what their versions were given. -/
def tupleOf
    (log : SaverLog Object)
    (threadId checkpointNs : String)
    (put : PutRecord Object) :
    CheckpointTuple Object where
  threadId := threadId
  checkpointNs := checkpointNs
  checkpointId := put.body.id
  checkpoint := {
    body := put.body
    channelValues := put.body.channelVersions.items.filterMap fun entry =>
      (versionValue (log.puts threadId checkpointNs) entry).map fun value => (entry.1, value) }
  metadata := put.metadata
  parentId := put.parentId
  pendingWrites :=
    ((log.writes threadId checkpointNs put.body.id).mergeSort
      CoreRedisCheckpointSaver.sortsBefore).map CoreRedisCheckpointSaver.writeEntry

/-- The last put of the requested id, or the last put of all. -/
def chosen
    (log : SaverLog Object)
    (threadId checkpointNs : String)
    (requested : Option String) :
    Option (PutRecord Object) :=
  match givenId requested with
  | some checkpointId => lastPut (log.puts threadId checkpointNs) checkpointId
  | none => (log.puts threadId checkpointNs).head?

/-- The checkpoint that a reader gets. -/
def getTuple
    (log : SaverLog Object)
    (threadId checkpointNs : String)
    (requested : Option String) :
    Option (CheckpointTuple Object) :=
  (log.chosen threadId checkpointNs requested).map (log.tupleOf threadId checkpointNs)

end SaverLog

namespace CoreRedisCheckpointSaver

/-- The record of a put. -/
def putRecord
    (saver : CoreRedisCheckpointSaver Object)
    (config : CheckpointConfig Object)
    (checkpoint : Checkpoint Object)
    (metadata : Object)
    (newVersions : ChannelVersions) :
    PutRecord Object where
  body := checkpoint.body
  channelValues := checkpoint.channelValues
  metadata := saver.checkpointMetadata config.extra metadata
  parentId := givenId config.checkpointId
  newVersions := newVersions

/-- What a call adds or forgets. Writes without a checkpoint id are refused. -/
def record
    (saver : CoreRedisCheckpointSaver Object)
    (log : SaverLog Object) :
    SaverCall Object → SaverLog Object
  | .put config checkpoint metadata newVersions =>
      log.put config.threadId config.checkpointNs
        (saver.putRecord config checkpoint metadata newVersions)
  | .putWrites config writes taskId taskPath =>
      match givenId config.checkpointId with
      | none => log
      | some checkpointId =>
          log.putWrites config.threadId config.checkpointNs checkpointId
            (saver.indexedWrites writes taskId taskPath)
  | .deleteThread threadId => log.deleteThread threadId

/-- What a sequence of calls leaves. -/
def history
    (saver : CoreRedisCheckpointSaver Object)
    (calls : List (SaverCall Object)) :
    SaverLog Object :=
  calls.foldl saver.record .empty

end CoreRedisCheckpointSaver

end MrAgent
