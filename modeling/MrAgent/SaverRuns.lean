import MrAgent.SaverReads

namespace MrAgent

open RedisCommands CoreRedisCheckpointSaver

/-!
# Runs of the checkpoint store

Every sequence of calls keeps the keys and the log together, as long as no
checkpoint is put under an id whose key is that of the index or of the sequence,
or that a reader takes for no id.
-/

variable {Object : Type}

/-- A put names its checkpoint by an id that can be read back. -/
def SaverCall.Readable : SaverCall Object → Prop
  | .put _ checkpoint _ _ => ReadableId checkpoint.body.id
  | .putWrites _ _ _ _ => True
  | .deleteThread _ => True

/-- What a call raises: writes without a checkpoint id are refused. -/
def SaverCall.raises : SaverCall Object → Option SaverFailure
  | .putWrites config _ _ _ =>
      if givenId config.checkpointId = none then some .checkpointIdRequired else none
  | _ => none

theorem givenId_idem
    (requested : Option String) :
    givenId (givenId requested) = givenId requested := by
  simp [givenId, Option.filter_filter]

variable {key : List Char}

theorem threadPrefix_inj
    {threadId other : String}
    (starts : threadPrefix threadId <+: key)
    (owned : threadPrefix other <+: key) :
    threadId = other := by
  obtain ⟨tail, whole⟩ := starts
  obtain ⟨rest, same⟩ := owned
  rw [← same] at whole
  simp only [threadPrefix, List.append_assoc, List.cons_append, List.append_cancel_left_eq,
    List.cons.injEq, true_and, List.nil_append] at whole
  have split := (SeparatedText.append_cons_inj (colon_notMem_quote threadId)
    (colon_notMem_quote other)).mp whole
  exact quote_inj.mp split.1

variable (threadId : String)

theorem threadPrefix_threadsKey :
    ¬threadPrefix threadId <+: threadsKey := by
  intro starts
  cases (SaverKey.threadPrefix_prefix_iff threadId .threads).mp starts

variable (db : CheckpointDb Object)

theorem deleteMatching_thread
    (key : List Char) :
    deleteMatching (keyPrefix ++ ':' :: quote threadId ++ ":*".toList) db key =
      if threadPrefix threadId <+: key then none else db key := by
  rw [deleteMatching, globMatch_thread]
  simp only [List.isPrefixOf_iff_prefix]

theorem deleteMatching_threadsKey :
    deleteMatching (keyPrefix ++ ':' :: quote threadId ++ ":*".toList) db threadsKey =
      db threadsKey := by
  rw [deleteMatching_thread, if_neg (threadPrefix_threadsKey threadId)]

theorem deleteThread_apply
    (other : key ≠ threadsKey) :
    (deleteThread threadId db).1 key = if threadPrefix threadId <+: key then none else db key := by
  rw [← deleteMatching_thread]
  exact Function.update_of_ne other _ _

theorem deleteThread_threadsKey :
    (deleteThread threadId db).1 threadsKey =
      (Command.srem threadsKey threadId).after (db threadsKey) := by
  have started := deleteMatching_threadsKey threadId db
  simp only [deleteThread, execute, Command.key, Function.update_self, started]

variable {log : SaverLog Object} {db : CheckpointDb Object}

theorem Represents.deleteThread
    (represents : Represents log (cells db))
    (threadId : String) :
    (CoreRedisCheckpointSaver.deleteThread threadId db).2 = none ∧
      Represents (log.deleteThread threadId)
        (cells (CoreRedisCheckpointSaver.deleteThread threadId db).1) := by
  have data : ∀ key : SaverKey, key ≠ .threads →
      cells (CoreRedisCheckpointSaver.deleteThread threadId db).1 key =
        if key.thread? = some threadId then none else cells db key := by
    intro key other
    have text : key.text ≠ threadsKey := fun same => other (SaverKey.text_injective same)
    simp only [cells, deleteThread_apply threadId db text, SaverKey.threadPrefix_prefix_iff]
  have names : ∀ held, db threadsKey = some held → held.kind = .set :=
    represents.typed .threads
  have typed : Typed SaverKey.kind (cells (CoreRedisCheckpointSaver.deleteThread threadId db).1) := by
    intro key held holds
    by_cases same : key = .threads
    · subst same
      change (CoreRedisCheckpointSaver.deleteThread threadId db).1 threadsKey = _ at holds
      rw [deleteThread_threadsKey] at holds
      exact Command.kind_after names holds
    · rw [data key same] at holds
      split at holds
      · cases holds
      · exact represents.typed key held holds
  have accepted : (CoreRedisCheckpointSaver.deleteThread threadId db).2 = none := by
    have accepts : (Command.srem threadsKey threadId).refusal (db threadsKey) = none :=
      Command.refusal_eq_none names
    simp only [CoreRedisCheckpointSaver.deleteThread, execute, Command.key,
      deleteMatching_threadsKey, accepts]
    rfl
  refine ⟨accepted, ⟨typed, ?index, ?sequence, ?checkpoint, ?writes, ?blob⟩⟩
  case index =>
    intro thread space
    rw [data _ (by simp), represents.index]
    simp only [SaverKey.thread?, SaverLog.deleteThread, Option.some.injEq]
    split <;> rfl
  case sequence =>
    intro thread space
    rw [data _ (by simp), represents.sequence]
    simp only [SaverKey.thread?, SaverLog.deleteThread, Option.some.injEq]
    split <;> rfl
  case checkpoint =>
    intro thread space id
    rw [data _ (by simp), represents.checkpoint]
    simp only [SaverKey.thread?, SaverLog.deleteThread, Option.some.injEq]
    split <;> rfl
  case writes =>
    intro thread space id
    rw [data _ (by simp), represents.writes]
    simp only [SaverKey.thread?, SaverLog.deleteThread, Option.some.injEq]
    split <;> rfl
  case blob =>
    intro thread space channel version
    rw [data _ (by simp), represents.blob]
    simp only [SaverKey.thread?, SaverLog.deleteThread, Option.some.injEq]
    split <;> rfl

variable {call : SaverCall Object}

theorem Represents.serve
    (represents : Represents log (cells db))
    (saver : CoreRedisCheckpointSaver Object)
    (readable : call.Readable) :
    (saver.serve call db).2 = call.raises ∧
      Represents (saver.record log call) (cells (saver.serve call db).1) := by
  cases call with
  | put config checkpoint metadata newVersions =>
      have named : ReadableId checkpoint.body.id := readable
      let checkpointId : KeyId := ⟨checkpoint.body.id, named.2.1, named.2.2⟩
      obtain ⟨counted, counts, accepted, kept⟩ := represents.put config.threadId
        config.checkpointNs checkpointId
        (saver.putRecord config checkpoint metadata newVersions) rfl
      obtain ⟨started, counter, same⟩ := incr_rename SaverKey.text_injective counts
      have commands := putCommands_eq saver config checkpointId rfl metadata
        newVersions counted.2
      have moved := execute_rename SaverKey.text_injective
        (keyedPut config.threadId config.checkpointNs checkpointId
          (saver.putRecord config checkpoint metadata newVersions) counted.2) started
      rw [same] at moved
      have served : saver.serve (.put config checkpoint metadata newVersions) db =
          ((execute ((keyedPut config.threadId config.checkpointNs checkpointId
              (saver.putRecord config checkpoint metadata newVersions) counted.2).map
                (Command.rename SaverKey.text)) started).1, none) := by
        change incr (sequenceKey config.threadId config.checkpointNs) db = _ at counter
        simp only [CoreRedisCheckpointSaver.serve, CoreRedisCheckpointSaver.put, counter, commands,
          moved.2, accepted]
        rfl
      rw [served]
      refine ⟨rfl, ?_⟩
      rw [← moved.1] at kept
      exact kept
  | putWrites config writes taskId taskPath =>
      cases given : givenId config.checkpointId with
      | none =>
          simp only [CoreRedisCheckpointSaver.serve, CoreRedisCheckpointSaver.putWrites,
            SaverCall.raises, record, given, if_true]
          exact ⟨trivial, represents⟩
      | some checkpointId =>
          have moved := execute_rename SaverKey.text_injective
            (keyedWrites config.threadId config.checkpointNs checkpointId
              (saver.indexedWrites writes taskId taskPath)) db
          have kept := represents.putWrites config.threadId config.checkpointNs checkpointId
            (saver.indexedWrites writes taskId taskPath)
          have commands := putWritesCommands_eq saver config.threadId config.checkpointNs
            checkpointId writes taskId taskPath
          have served : saver.serve (.putWrites config writes taskId taskPath) db =
              ((execute ((keyedWrites config.threadId config.checkpointNs checkpointId
                (saver.indexedWrites writes taskId taskPath)).map
                  (Command.rename SaverKey.text)) db).1, none) := by
            have accepted := moved.2.trans kept.1
            simp only [CoreRedisCheckpointSaver.serve, CoreRedisCheckpointSaver.putWrites, given,
              commands, accepted]
            rfl
          have recorded : saver.record log (.putWrites config writes taskId taskPath) =
              log.putWrites config.threadId config.checkpointNs checkpointId
                (saver.indexedWrites writes taskId taskPath) := by
            simp only [record, given]
          rw [served, recorded]
          refine ⟨by simp [SaverCall.raises, given], ?_⟩
          have held := kept.2
          change Represents _ (execute _ (fun key => db (SaverKey.text key))).1 at held
          rw [← moved.1] at held
          exact held
  | deleteThread threadId =>
      exact represents.deleteThread threadId

theorem WellNamed.record
    (wellNamed : WellNamed log)
    (saver : CoreRedisCheckpointSaver Object)
    (readable : call.Readable) :
    WellNamed (saver.record log call) := by
  intro thread space put member
  cases call with
  | put config checkpoint metadata newVersions =>
      simp only [CoreRedisCheckpointSaver.record, SaverLog.put] at member
      split at member
      · next same =>
          rcases List.mem_cons.mp member with rfl | earlier
          · exact ⟨readable, givenId_idem _⟩
          · exact wellNamed _ _ put earlier
      · exact wellNamed thread space put member
  | putWrites config writes taskId taskPath =>
      simp only [CoreRedisCheckpointSaver.record] at member
      split at member
      · exact wellNamed thread space put member
      · exact wellNamed thread space put member
  | deleteThread threadId =>
      simp only [CoreRedisCheckpointSaver.record, SaverLog.deleteThread] at member
      split at member
      · cases member
      · exact wellNamed thread space put member

/-- The keys and the log, with ids that can be read back. -/
structure HoldsLog (log : SaverLog Object) (db : CheckpointDb Object) : Prop where
  represents : Represents log (cells db)
  wellNamed : WellNamed log

theorem holdsLog_empty :
    @HoldsLog Object .empty fun _ => none where
  represents := {
    typed := fun _ _ held => nomatch held
    index := fun _ _ => rfl
    sequence := fun _ _ => rfl
    checkpoint := fun _ _ _ => rfl
    writes := fun _ _ _ => rfl
    blob := fun _ _ _ _ => rfl }
  wellNamed := fun _ _ _ member => nomatch member

variable (saver : CoreRedisCheckpointSaver Object) {calls : List (SaverCall Object)}

theorem HoldsLog.foldl
    (readable : ∀ call ∈ calls, call.Readable)
    (holds : HoldsLog log db) :
    HoldsLog (calls.foldl saver.record log)
      (calls.foldl (fun db call => (saver.serve call db).1) db) := by
  induction calls generalizing log db with
  | nil =>
      exact holds
  | cons call rest ih =>
      have first := readable call List.mem_cons_self
      apply ih fun other member => readable other (List.mem_cons_of_mem _ member)
      exact ⟨(holds.represents.serve saver first).2, holds.wellNamed.record saver first⟩

theorem holdsLog_run
    (readable : ∀ call ∈ calls, call.Readable) :
    HoldsLog (saver.history calls) (saver.run calls) :=
  holdsLog_empty.foldl saver readable

theorem put_of_history
    {threadId checkpointNs : String}
    {put : PutRecord Object}
    (member : put ∈ (saver.history calls).puts threadId checkpointNs) :
    ∃ config checkpoint metadata newVersions,
      SaverCall.put config checkpoint metadata newVersions ∈ calls ∧
        config.threadId = threadId ∧ config.checkpointNs = checkpointNs ∧
          put = saver.putRecord config checkpoint metadata newVersions := by
  induction calls using List.reverseRecOn with
  | nil =>
      cases member
  | append_singleton earlier call ih =>
      have older : put ∈ (saver.history earlier).puts threadId checkpointNs →
          ∃ config checkpoint metadata newVersions,
            SaverCall.put config checkpoint metadata newVersions ∈ earlier ++ [call] ∧
              config.threadId = threadId ∧ config.checkpointNs = checkpointNs ∧
                put = saver.putRecord config checkpoint metadata newVersions := by
        intro before
        obtain ⟨config, checkpoint, metadata, newVersions, called, rest⟩ :=
          ih before
        exact ⟨config, checkpoint, metadata, newVersions, List.mem_append_left _ called, rest⟩
      rw [history, List.foldl_concat] at member
      change put ∈ (saver.record (saver.history earlier) call).puts threadId checkpointNs at member
      cases call with
      | put config checkpoint metadata newVersions =>
          simp only [CoreRedisCheckpointSaver.record, SaverLog.put] at member
          split at member
          · next same =>
              obtain ⟨rfl, rfl⟩ := same
              rcases List.mem_cons.mp member with rfl | before
              · exact ⟨config, checkpoint, metadata, newVersions, by simp, rfl, rfl, rfl⟩
              · exact older before
          · exact older member
      | putWrites config writes taskId taskPath =>
          simp only [CoreRedisCheckpointSaver.record] at member
          split at member
          · exact older member
          · exact older member
      | deleteThread thread =>
          simp only [CoreRedisCheckpointSaver.record, SaverLog.deleteThread] at member
          split at member
          · cases member
          · exact older member

end MrAgent
