import MrAgent.CheckpointKeys
import MrAgent.SaverLog

namespace MrAgent

open RedisCommands

/-!
# The key families hold the log

Each family of keys is a function of the log: the sequence counts the puts, the
index ranks each id by its last put, a blob has what the last put of its version
gave it, and the hash of the pending writes has one field for each slot.
-/

variable {Object : Type}

/-- The ids of some puts, each with the number of its last put. -/
def ranked : List (PutRecord Object) → List (String × Nat)
  | [] => []
  | put :: earlier =>
      (put.body.id, earlier.length + 1) :: (ranked earlier).filter (·.1 ≠ put.body.id)

/-- The index of a namespace. -/
def indexCell (puts : List (PutRecord Object)) : Option (Value (StoredItem Object)) :=
  match puts with
  | [] => none
  | puts => some (.sortedSet (ranked puts))

/-- The sequence of a namespace. -/
def sequenceCell (puts : List (PutRecord Object)) : Option (Value (StoredItem Object)) :=
  match puts with
  | [] => none
  | puts => some (.number puts.length)

/-- The fields of a checkpoint. -/
def recordFields (put : PutRecord Object) : List (List Char × StoredItem Object) :=
  [("checkpoint".toList, .encodedBody put.body),
    ("metadata".toList, .encoded put.metadata),
    ("parent".toList, .plain (put.parentId.getD ""))]

/-- What a put stores for a version of a channel. -/
def blobItem (put : PutRecord Object) (entry : String × Int) : StoredItem Object :=
  match put.channelValues.lookup entry.1 with
  | some value => .encoded value
  | none => .emptyBlob

/-- The fields of the writes pending on a checkpoint. -/
def writeFields (kept : List (StoredWrite Object)) : List (List Char × StoredItem Object) :=
  kept.map fun write => (writeField write.taskId write.index, .write write)

/-- The writes pending on a checkpoint. -/
def writesCell (kept : List (StoredWrite Object)) : Option (Value (StoredItem Object)) :=
  match kept with
  | [] => none
  | kept => some (.hash (writeFields kept))

/-- The families of the thread data hold the log. -/
structure Represents
    (log : SaverLog Object)
    (cells : Store SaverKey (StoredItem Object)) : Prop where
  typed : Typed SaverKey.kind cells
  index : ∀ threadId checkpointNs,
    cells (.index threadId checkpointNs) = indexCell (log.puts threadId checkpointNs)
  sequence : ∀ threadId checkpointNs,
    cells (.sequence threadId checkpointNs) = sequenceCell (log.puts threadId checkpointNs)
  checkpoint : ∀ threadId checkpointNs checkpointId,
    cells (.checkpoint threadId checkpointNs checkpointId) =
      (lastPut (log.puts threadId checkpointNs) checkpointId.text).map fun put =>
        .hash (recordFields put)
  writes : ∀ threadId checkpointNs checkpointId,
    cells (.writes threadId checkpointNs checkpointId) =
      writesCell (log.writes threadId checkpointNs checkpointId)
  blob : ∀ threadId checkpointNs channel version,
    cells (.blob threadId checkpointNs channel version) =
      (lastWriter (log.puts threadId checkpointNs) (channel, version)).map fun put =>
        .text (blobItem put (channel, version))

/-- The values of the saver's keys. -/
def cells (db : CheckpointDb Object) : Store SaverKey (StoredItem Object) :=
  fun key => db key.text

/-- The transaction of a put, on the keys of the saver. -/
def keyedPut
    (threadId checkpointNs : String)
    (checkpointId : KeyId)
    (put : PutRecord Object)
    (sequence : Nat) :
    List (Command SaverKey (StoredItem Object)) :=
  put.newVersions.items.map (fun entry =>
      .set (.blob threadId checkpointNs entry.1 entry.2) (blobItem put entry)) ++
    [.hset (.checkpoint threadId checkpointNs checkpointId) (recordFields put),
      .zadd (.index threadId checkpointNs) put.body.id sequence,
      .sadd .threads threadId,
      .sadd (.namespaces threadId) checkpointNs]

/-- The transaction of some writes, on the keys of the saver. -/
def keyedWrites
    (threadId checkpointNs checkpointId : String)
    (writes : List (StoredWrite Object)) :
    List (Command SaverKey (StoredItem Object)) :=
  writes.map fun write =>
    let field := writeField write.taskId write.index
    if write.index < 0 then
      .hset (.writes threadId checkpointNs checkpointId) [(field, .write write)]
    else .hsetnx (.writes threadId checkpointNs checkpointId) field (.write write)

variable (saver : CoreRedisCheckpointSaver Object)

theorem putCommands_eq
    (config : CheckpointConfig Object)
    {checkpoint : Checkpoint Object}
    (checkpointId : KeyId)
    (named : checkpoint.body.id = checkpointId.text)
    (metadata : Object)
    (newVersions : ChannelVersions)
    (sequence : Nat) :
    saver.putCommands config checkpoint metadata newVersions sequence =
      (keyedPut config.threadId config.checkpointNs checkpointId
        (saver.putRecord config checkpoint metadata newVersions) sequence).map
          (Command.rename SaverKey.text) := by
  simp only [CoreRedisCheckpointSaver.putCommands, keyedPut, List.map_append, List.map_map,
    List.map_cons, List.map_nil, Command.rename, SaverKey.text, ← named]
  rfl

theorem putWritesCommands_eq
    (threadId checkpointNs checkpointId : String)
    (writes : List (String × Object))
    (taskId taskPath : String) :
    saver.putWritesCommands (writesKey threadId checkpointNs checkpointId) writes taskId taskPath =
      (keyedWrites threadId checkpointNs checkpointId
        (saver.indexedWrites writes taskId taskPath)).map (Command.rename SaverKey.text) := by
  simp only [CoreRedisCheckpointSaver.putWritesCommands, keyedWrites,
    CoreRedisCheckpointSaver.indexedWrites, List.map_map]
  apply List.map_congr_left
  intro entry _
  simp only [Function.comp_apply]
  split <;> rfl

theorem writeField_beq
    (task other : String)
    (index place : Int) :
    (writeField task index == writeField other place) = (task == other && index == place) := by
  rw [Bool.eq_iff_iff]
  simp only [beq_iff_eq, Bool.and_eq_true, writeField]
  rw [SeparatedText.append_cons_inj (colon_notMem_quote task) (colon_notMem_quote other),
    quote_inj, intText_inj]

theorem any_writeFields
    (kept : List (StoredWrite Object))
    (write : StoredWrite Object) :
    ((writeFields kept).any fun entry => entry.1 == writeField write.taskId write.index) =
      kept.any write.sameSlot := by
  rw [writeFields, List.any_map]
  congr 1
  funext other
  exact writeField_beq _ _ _ _

theorem hashSet_writeFields
    (kept : List (StoredWrite Object))
    (write : StoredWrite Object) :
    hashSet (writeFields kept) (writeField write.taskId write.index) (.write write) =
      writeFields (if kept.any write.sameSlot then
          kept.map fun other => if write.sameSlot other then write else other
        else kept ++ [write]) := by
  rw [hashSet, any_writeFields]
  split
  · simp only [writeFields, List.map_map]
    apply List.map_congr_left
    intro other _
    simp only [Function.comp_apply]
    rw [writeField_beq]
    change (if write.sameSlot other then _ else _) = _
    split <;> rfl
  · simp [writeFields]

variable (threadId checkpointNs checkpointId : String)

theorem after_keyedWrite
    (kept : List (StoredWrite Object))
    (write : StoredWrite Object) :
    (keyedWrites threadId checkpointNs checkpointId [write]).foldl
        (fun value command => command.after value) (writesCell kept) =
      writesCell (keepWrite kept write) := by
  simp only [keyedWrites, List.map_cons, List.map_nil, List.foldl_cons, List.foldl_nil]
  cases kept with
  | nil =>
      split <;> rfl
  | cons first rest =>
      have fields := hashSet_writeFields (first :: rest) write
      have slots := any_writeFields (first :: rest) write
      by_cases reserved : write.index < 0
      · rw [if_pos reserved]
        simp only [writesCell, Command.after, Command.effect, List.foldl_cons, List.foldl_nil,
          keepWrite, if_pos reserved, fields]
        split <;> rfl
      · rw [if_neg reserved]
        simp only [writesCell, Command.after, Command.effect, slots, keepWrite, if_neg reserved]
        split
        · rfl
        · simp [writeFields]

theorem foldl_keyedWrites
    (writes kept : List (StoredWrite Object)) :
    (keyedWrites threadId checkpointNs checkpointId writes).foldl
        (fun value command => command.after value) (writesCell kept) =
      writesCell (writes.foldl keepWrite kept) := by
  induction writes generalizing kept with
  | nil =>
      rfl
  | cons write rest ih =>
      have first := after_keyedWrite threadId checkpointNs checkpointId kept write
      simp only [keyedWrites, List.map_cons, List.map_nil, List.foldl_cons, List.foldl_nil] at first
      simp only [keyedWrites, List.map_cons, List.foldl_cons]
      rw [first]
      exact ih (keepWrite kept write)

variable {command : Command SaverKey (StoredItem Object)}

theorem key_of_mem_keyedWrites
    {threadId checkpointNs checkpointId : String}
    {writes : List (StoredWrite Object)}
    (member : command ∈ keyedWrites threadId checkpointNs checkpointId writes) :
    command.key = .writes threadId checkpointNs checkpointId ∧ command.kind = .hash := by
  obtain ⟨write, _, made⟩ := List.mem_map.mp member
  rw [← made]
  split <;> exact ⟨rfl, rfl⟩

variable {log : SaverLog Object}

theorem Represents.putWrites
    {cells : Store SaverKey (StoredItem Object)}
    (represents : Represents log cells)
    (threadId checkpointNs checkpointId : String)
    (writes : List (StoredWrite Object)) :
    (execute (keyedWrites threadId checkpointNs checkpointId writes) cells).2 = none ∧
      Represents (log.putWrites threadId checkpointNs checkpointId writes)
        (execute (keyedWrites threadId checkpointNs checkpointId writes) cells).1 := by
  have agree : ∀ command ∈ keyedWrites threadId checkpointNs checkpointId writes,
      command.kind = command.key.kind := by
    intro command member
    rw [(key_of_mem_keyedWrites member).1, (key_of_mem_keyedWrites member).2]
    rfl
  have typed := execute_typed agree represents.typed
  have others : ∀ key, key ≠ .writes threadId checkpointNs checkpointId →
      (execute (keyedWrites threadId checkpointNs checkpointId writes) cells).1 key =
        cells key := by
    intro key other
    apply execute_of_forall_ne
    intro command member
    rw [(key_of_mem_keyedWrites member).1]
    exact Ne.symm other
  refine ⟨typed.1, ⟨typed.2, ?index, ?sequence, ?checkpoint, ?writes, ?blob⟩⟩
  case index =>
    intro thread space
    rw [others _ (by simp), represents.index]
    rfl
  case sequence =>
    intro thread space
    rw [others _ (by simp), represents.sequence]
    rfl
  case checkpoint =>
    intro thread space id
    rw [others _ (by simp), represents.checkpoint]
    rfl
  case blob =>
    intro thread space channel version
    rw [others _ (by simp), represents.blob]
    rfl
  case writes =>
    intro thread space id
    simp only [SaverLog.putWrites]
    split
    · next same =>
        obtain ⟨rfl, rfl, rfl⟩ := same
        rw [execute_apply, List.filter_eq_self.mpr, represents.writes, foldl_keyedWrites]
        intro command member
        rw [(key_of_mem_keyedWrites member).1]
        simp
    · next other =>
        rw [others _ (by simpa using other), represents.writes]

theorem key_of_mem_keyedPut
    {threadId checkpointNs : String}
    {checkpointId : KeyId}
    {put : PutRecord Object}
    {sequence : Nat}
    (member : command ∈ keyedPut threadId checkpointNs checkpointId put sequence) :
    command.kind = command.key.kind := by
  simp only [keyedPut, List.mem_append, List.mem_map, List.mem_cons, List.not_mem_nil,
    or_false] at member
  rcases member with ⟨entry, _, rfl⟩ | rfl | rfl | rfl | rfl <;> rfl

theorem ranked_le
    {puts : List (PutRecord Object)}
    {entry : String × Nat}
    (member : entry ∈ ranked puts) :
    entry.2 ≤ puts.length := by
  induction puts with
  | nil =>
      cases member
  | cons put earlier ih =>
      rcases List.mem_cons.mp member with newest | older
      · rw [newest]
        exact Nat.le_refl _
      · have bound := ih (List.mem_of_mem_filter older)
        exact Nat.le_succ_of_le bound

variable (key : SaverKey)

theorem after_zadd
    (put : PutRecord Object)
    (puts : List (PutRecord Object)) :
    (Command.zadd key put.body.id (puts.length + 1)).after (indexCell puts) =
      indexCell (put :: puts) := by
  cases puts with
  | nil =>
      rfl
  | cons last earlier =>
      have highest : ∀ entry ∈ ranked (last :: earlier), entry.2 < (last :: earlier).length + 1 :=
        fun entry member => Nat.lt_succ_of_le (ranked_le member)
      simp only [indexCell, Command.after, Command.effect, rank_highest highest]
      rfl

theorem foldl_hashSet
    {Item : Type}
    {first second third : List Char}
    (names : [first, second, third].Nodup)
    (fields : Item × Item × Item)
    {held : List (List Char × Item)}
    (before : held = [] ∨ ∃ x y z, held = [(first, x), (second, y), (third, z)]) :
    [(first, fields.1), (second, fields.2.1), (third, fields.2.2)].foldl
        (fun fields entry => hashSet fields entry.1 entry.2) held =
      [(first, fields.1), (second, fields.2.1), (third, fields.2.2)] := by
  simp only [List.nodup_cons, List.mem_cons, List.not_mem_nil, or_false, not_or,
    not_false_eq_true, List.nodup_nil, and_true] at names
  obtain ⟨⟨firstSecond, firstThird⟩, secondThird⟩ := names
  rcases before with rfl | ⟨x, y, z, rfl⟩ <;>
    simp [hashSet, firstSecond, firstThird, secondThird, Ne.symm firstSecond,
      Ne.symm firstThird, Ne.symm secondThird]

theorem recordFields_nodup :
    ["checkpoint".toList, "metadata".toList, "parent".toList].Nodup := by
  decide

theorem after_hset
    (put : PutRecord Object)
    (old : Option (PutRecord Object)) :
    (Command.hset key (recordFields put)).after (old.map fun put => .hash (recordFields put)) =
      some (.hash (recordFields put)) := by
  have fields : ∀ held : List (List Char × StoredItem Object),
      held = [] ∨ (∃ old, held = recordFields old) →
        (recordFields put).foldl (fun fields entry => hashSet fields entry.1 entry.2) held =
          recordFields put := by
    intro held before
    apply foldl_hashSet recordFields_nodup (StoredItem.encodedBody put.body,
      StoredItem.encoded put.metadata, StoredItem.plain (put.parentId.getD ""))
    rcases before with rfl | ⟨old, rfl⟩
    · exact Or.inl rfl
    · exact Or.inr ⟨_, _, _, rfl⟩
  cases old with
  | none =>
      have stored := fields [] (Or.inl rfl)
      exact congrArg (fun fields => some (Value.hash fields)) stored
  | some old =>
      have stored := fields (recordFields old) (Or.inr ⟨old, rfl⟩)
      exact congrArg (fun fields => some (Value.hash fields)) stored

theorem foldl_setBlob
    (threadId checkpointNs : String)
    (put : PutRecord Object)
    (entry : String × Int)
    {entries : List (String × Int)}
    (same : ∀ other ∈ entries, other = entry)
    (value : Option (Value (StoredItem Object))) :
    (entries.map fun other =>
        Command.set (SaverKey.blob threadId checkpointNs other.1 other.2)
          (blobItem put other)).foldl (fun value command => command.after value) value =
      if entries = [] then value else some (Value.text (blobItem put entry)) := by
  induction entries generalizing value with
  | nil =>
      rfl
  | cons first rest ih =>
      have head : first = entry := same first List.mem_cons_self
      have tail := ih
        (fun other member => same other (List.mem_cons_of_mem _ member))
        (some (Value.text (blobItem put entry)))
      rw [List.map_cons, List.foldl_cons, head, if_neg (List.cons_ne_nil _ _)]
      change List.foldl _ (some (Value.text (blobItem put entry))) _ = _
      rw [tail]
      split <;> rfl

theorem filter_keyedPut
    (threadId checkpointNs : String)
    (checkpointId : KeyId)
    (put : PutRecord Object)
    (sequence : Nat)
    (key : SaverKey) :
    (keyedPut threadId checkpointNs checkpointId put sequence).filter (·.key = key) =
      match key with
      | .blob thread space channel version =>
          if thread = threadId ∧ space = checkpointNs then
            (put.newVersions.items.filter (· = (channel, version))).map fun entry =>
              .set (.blob threadId checkpointNs entry.1 entry.2) (blobItem put entry)
          else []
      | .checkpoint thread space id =>
          if thread = threadId ∧ space = checkpointNs ∧ id = checkpointId then
            [.hset (.checkpoint threadId checkpointNs checkpointId) (recordFields put)]
          else []
      | .index thread space =>
          if thread = threadId ∧ space = checkpointNs then
            [.zadd (.index threadId checkpointNs) put.body.id sequence]
          else []
      | .threads => [.sadd .threads threadId]
      | .namespaces thread =>
          if thread = threadId then [.sadd (.namespaces threadId) checkpointNs] else []
      | .sequence _ _ => []
      | .writes _ _ _ => [] := by
  cases key with
  | blob thread space channel version =>
      by_cases same : thread = threadId ∧ space = checkpointNs
      · obtain ⟨rfl, rfl⟩ := same
        simp [keyedPut, List.filter_map, Function.comp_def, Command.key, Prod.ext_iff]
      · have other : ∀ entry : String × Int,
            ¬(threadId = thread ∧ checkpointNs = space ∧ entry.1 = channel ∧
              entry.2 = version) := by
          intro entry both
          exact same ⟨both.1.symm, both.2.1.symm⟩
        simp [keyedPut, List.filter_map, Function.comp_def, Command.key, same, other]
  | checkpoint thread space id =>
      by_cases same : thread = threadId ∧ space = checkpointNs ∧ id = checkpointId
      · obtain ⟨rfl, rfl, rfl⟩ := same
        simp [keyedPut, List.filter_map, Function.comp_def, Command.key]
      · have other :
            ¬(threadId = thread ∧ checkpointNs = space ∧ checkpointId = id) := by
          rintro ⟨rfl, rfl, rfl⟩
          exact same ⟨rfl, rfl, rfl⟩
        simp [keyedPut, List.filter_map, Function.comp_def, Command.key, same, other]
  | index thread space =>
      by_cases same : thread = threadId ∧ space = checkpointNs
      · obtain ⟨rfl, rfl⟩ := same
        simp [keyedPut, List.filter_map, Function.comp_def, Command.key]
      · have other : ¬(threadId = thread ∧ checkpointNs = space) := by
          rintro ⟨rfl, rfl⟩
          exact same ⟨rfl, rfl⟩
        simp [keyedPut, List.filter_map, Function.comp_def, Command.key, same, other]
  | namespaces thread =>
      simp [keyedPut, List.filter_map, Function.comp_def, Command.key, eq_comm,
        List.filter_cons]
  | threads =>
      simp [keyedPut, List.filter_map, Function.comp_def, Command.key]
  | sequence thread space =>
      simp [keyedPut, List.filter_map, Function.comp_def, Command.key]
  | writes thread space id =>
      simp [keyedPut, List.filter_map, Function.comp_def, Command.key]

theorem Represents.put
    {cells : Store SaverKey (StoredItem Object)}
    (represents : Represents log cells)
    (threadId checkpointNs : String)
    (checkpointId : KeyId)
    (put : PutRecord Object)
    (named : put.body.id = checkpointId.text) :
    ∃ counted, incr (.sequence threadId checkpointNs) cells = .ok counted ∧
      (execute (keyedPut threadId checkpointNs checkpointId put counted.2) counted.1).2 = none ∧
        Represents (log.put threadId checkpointNs put)
          (execute (keyedPut threadId checkpointNs checkpointId put counted.2) counted.1).1 := by
  let puts := log.puts threadId checkpointNs
  let started := Function.update cells (.sequence threadId checkpointNs)
    (some (.number (puts.length + 1)))
  have counts : incr (.sequence threadId checkpointNs) cells =
      .ok (started, puts.length + 1) := by
    rw [incr, represents.sequence]
    cases held : log.puts threadId checkpointNs <;> simp [sequenceCell, started, puts, held]
  refine ⟨(started, puts.length + 1), counts, ?_⟩
  dsimp only
  have startedTyped : Typed SaverKey.kind started :=
    represents.typed.update fun held left => by
      cases left
      rfl
  have agree : ∀ command ∈
      keyedPut threadId checkpointNs checkpointId put (puts.length + 1),
      command.kind = command.key.kind :=
    fun _ member => key_of_mem_keyedPut member
  have typed := execute_typed agree startedTyped
  -- Only the counter has changed before the transaction.
  have before : ∀ key, key ≠ .sequence threadId checkpointNs → started key = cells key :=
    fun key other => Function.update_of_ne other _ _
  refine ⟨typed.1, ⟨typed.2, ?index, ?sequence, ?checkpoint, ?writes, ?blob⟩⟩
  case index =>
    intro thread space
    rw [execute_apply, filter_keyedPut, before _ (by simp), represents.index]
    simp only [SaverLog.put]
    split
    · next same =>
        obtain ⟨rfl, rfl⟩ := same
        exact after_zadd _ put puts
    · rfl
  case sequence =>
    intro thread space
    rw [execute_apply, filter_keyedPut]
    simp only [SaverLog.put, List.foldl_nil]
    split
    · next same =>
        obtain ⟨rfl, rfl⟩ := same
        exact Function.update_self _ _ _
    · next other =>
        rw [before _ (by simpa using other), represents.sequence]
  case checkpoint =>
    intro thread space id
    rw [execute_apply, filter_keyedPut, before _ (by simp), represents.checkpoint]
    simp only [SaverLog.put]
    by_cases same : thread = threadId ∧ space = checkpointNs
    · obtain ⟨rfl, rfl⟩ := same
      by_cases own : id = checkpointId
      · subst own
        simp only [and_self, if_true, List.foldl_cons, List.foldl_nil, lastPut, named,
          List.find?_cons, decide_true, Option.map_some]
        exact after_hset _ put _
      · have other : ¬put.body.id = id.text := by
          rw [named]
          exact fun same => own (KeyId.ext same.symm)
        simp [own, lastPut, other]
    · have other : ¬(thread = threadId ∧ space = checkpointNs ∧ id = checkpointId) :=
        fun both => same ⟨both.1, both.2.1⟩
      rw [if_neg same, if_neg other, List.foldl_nil]
  case writes =>
    intro thread space id
    rw [execute_apply, filter_keyedPut, before _ (by simp), represents.writes]
    rfl
  case blob =>
    intro thread space channel version
    rw [execute_apply, filter_keyedPut, before _ (by simp), represents.blob]
    simp only [SaverLog.put]
    split
    · next same =>
        obtain ⟨rfl, rfl⟩ := same
        rw [foldl_setBlob _ _ _ (channel, version) (by simp)]
        by_cases written : (channel, version) ∈ put.newVersions.items
        · have found : put.newVersions.items.filter (· = (channel, version)) ≠ [] := by
            intro none
            have absent := List.filter_eq_nil_iff.mp none _ written
            simp at absent
          rw [if_neg found]
          simp [lastWriter, written]
        · have absent : put.newVersions.items.filter (· = (channel, version)) = [] := by
            rw [List.filter_eq_nil_iff]
            intro entry member same
            have equal : entry = (channel, version) := by simpa using same
            exact written (equal ▸ member)
          rw [if_pos absent]
          simp [lastWriter, written]
    · rfl

end MrAgent
