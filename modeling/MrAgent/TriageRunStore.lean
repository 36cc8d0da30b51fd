import MrAgent.RepairTerminal
import MrAgent.UniqueTable

namespace MrAgent

open UniqueTable

/-!
# Writers of the triage run table

`pr_agent/triage/store.py` keeps one `triage_runs` row per task. A repair's
terminal record replaces the row, a display name and a rollback audit enrich
it. Every writer but the display name reads first and writes later, so a write
may find another row than the one that was read. Versions are ghost data: they
say which of two values of a field is the newer one.
-/

/-- A value of a field with its place among the values of that field. -/
structure Versioned (α : Type) where
  value : α
  version : Nat
deriving DecidableEq

/-- The `rollback` member of a stored repair report. -/
structure RollbackAudit where
  taskId : TaskId
  trigger : RollbackTrigger
  status : RepairRollbackStatus
  manifestDigest : String
  rollbackCommitSha : String
  requestedBy : String
  failureCode : String
  failureMessage : String
deriving DecidableEq

/-- The members of a stored rollback state that the broker's scripts do not read. -/
structure RollbackDetails where
  manifestDigest : String := ""
  failureCode : String := ""
deriving DecidableEq

/-- The columns that `save_triage_run` replaces; the audit is a member of the report. -/
structure TriageRecord where
  taskId : Option TaskId
  feishuUserName : Option (Versioned String)
  run : TriageRun
  rollback : Option (Versioned RollbackAudit)
deriving DecidableEq

/-- A row of `triage_runs`. -/
structure TriageRow extends TriageRecord where
  id : Nat
deriving DecidableEq

/-- The primary key and `ux_triage_runs_task_id`, which covers rows of tasks only. -/
def triageIndexes : Indexes TriageRow where
  clash first second :=
    first.id == second.id || (first.taskId.isSome && first.taskId == second.taskId)
  symm := by
    intro first second
    rw [Bool.eq_iff_iff]
    simp only [Bool.or_eq_true, beq_iff_eq, Bool.and_eq_true]
    constructor
    · rintro (same | ⟨present, same⟩)
      · exact Or.inl same.symm
      · exact Or.inr ⟨same ▸ present, same.symm⟩
    · rintro (same | ⟨present, same⟩)
      · exact Or.inl same.symm
      · exact Or.inr ⟨same ▸ present, same.symm⟩

/-- The table of one database file. -/
abbrev TriageTable :=
  Table triageIndexes

namespace TriageTable

/-- `task_id = ?`. -/
def ofTask (task : TaskId) (row : TriageRow) : Bool :=
  row.taskId == some task

/-- The row that `get_triage_run_task` finds. -/
def rowOf (table : TriageTable) (task : TaskId) : Option TriageRow :=
  table.rows.find? (ofTask task)

/-- The next `AUTOINCREMENT` key. -/
def nextId (table : TriageTable) : Nat :=
  (table.rows.map (·.id)).foldr max 0 + 1

theorem apart_of_keys
    (select : TriageRow → Bool)
    (change : TriageRow → TriageRow)
    (keys : ∀ row, select row = true →
      (change row).id = row.id ∧ (change row).taskId = row.taskId)
    (first second : TriageRow)
    (clear : triageIndexes.clash first second = false) :
    triageIndexes.clash (Table.changed select change first) (Table.changed select change second) =
      false := by
  have same : ∀ row, (Table.changed select change row).id = row.id ∧
      (Table.changed select change row).taskId = row.taskId := by
    intro row
    unfold Table.changed
    split
    · rename_i selected
      exact keys row selected
    · exact ⟨rfl, rfl⟩
  simp only [triageIndexes, (same first).1, (same first).2, (same second).1, (same second).2]
  exact clear

/-- `DO UPDATE SET`: every column but the keys. -/
def overwrite (record : TriageRecord) (row : TriageRow) : TriageRow :=
  { row with toTriageRecord := { record with taskId := row.taskId } }

/-- `UPDATE ... WHERE task_id = ?` of columns without an index. -/
def modifyTask
    (table : TriageTable)
    (task : TaskId)
    (change : TriageRow → TriageRow)
    (keys : ∀ row, (change row).id = row.id ∧ (change row).taskId = row.taskId) : TriageTable :=
  table.modify (ofTask task) change (apart_of_keys _ _ fun row _ => keys row)

/-- `save_triage_run`: the conflict clause covers records of tasks only. -/
def saveTriageRun (table : TriageTable) (record : TriageRecord) : TriageTable :=
  match record.taskId with
  | some task =>
    if (table.rowOf task).isSome then
      table.modifyTask task (overwrite record) fun _ => ⟨rfl, rfl⟩
    else table.insertOrIgnore { toTriageRecord := record, id := table.nextId }
  | none => table.insertOrIgnore { toTriageRecord := record, id := table.nextId }

/-- `UPDATE triage_runs SET feishu_user_name = ?`; each write is newer than the last. -/
def rename (name : String) (row : TriageRow) : TriageRow :=
  { row with
    feishuUserName := some ⟨name, ((row.feishuUserName.map (·.version)).getD 0) + 1⟩ }

/-- `update_triage_run_identity`. -/
def updateTriageRunIdentity (table : TriageTable) (task : TaskId) (name : String) : TriageTable :=
  if name = "" then table
  else table.modifyTask task (rename name) fun _ => ⟨rfl, rfl⟩

/-- A value that is written again does not become older. -/
def refreshed
    (old : Option (Versioned RollbackAudit))
    (new : Versioned RollbackAudit) : Versioned RollbackAudit :=
  match old with
  | some old =>
    if old.value = new.value then ⟨new.value, max old.version new.version⟩ else new
  | none => new

/-- The new `repair_report` member of the extra document. -/
def withReport
    (report : RepairReport)
    (rollback : Option (Versioned RollbackAudit))
    (row : TriageRow) : TriageRow :=
  { row with
    run := { row.run with repairReport := report }
    rollback := rollback.map (refreshed row.rollback) }

/-- `update_triage_run_repair_report`. -/
def updateTriageRunRepairReport
    (table : TriageTable)
    (task : TaskId)
    (report : RepairReport)
    (rollback : Option (Versioned RollbackAudit)) : TriageTable :=
  table.modifyTask task (withReport report rollback) fun _ => ⟨rfl, rfl⟩

end TriageTable

/-! ## Reads and later writes -/

/-- What a writer holds between its reads and its write. -/
inductive PendingWrite where
  | save (task : TaskId) (run : TriageRun)
  | mergeReport (task : TaskId) (report : RepairReport)
  | mergeRollback (task : TaskId) (report : RepairReport) (audit : Versioned RollbackAudit)
deriving DecidableEq

/-- The `record` of `persist_repair_terminal`: no display name, a new extra document. -/
def terminalRecord (task : TaskId) (run : TriageRun) : TriageRecord where
  taskId := some task
  feishuUserName := none
  run := run
  rollback := none

/-- The transaction that a writer runs last. -/
def PendingWrite.apply (write : PendingWrite) (table : TriageTable) : TriageTable :=
  match write with
  | .save task run => table.saveTriageRun (terminalRecord task run)
  | .mergeReport task report => table.updateTriageRunRepairReport task report none
  | .mergeRollback task report audit => table.updateTriageRunRepairReport task report (some audit)

/-- `persist_repair_terminal` up to its write. -/
def terminalWrite
    (broker : Broker)
    (lower : List Char → List Char)
    (hasRow : Bool)
    (task : TaskId)
    (error : String) : Option PendingWrite :=
  match broker.getTask task with
  | .error _ => none
  | .ok none => none
  | .ok (some stored) =>
    let command := repairCommandWord stored.envelope.command
    let card := (broker.getTaskTriageCard task).map (·.card)
    if command = "" || !stored.status.terminal then none
    else if command = "/triage" && hasRow then
      some (.mergeReport task (buildRepairReport stored (terminalStatus stored card)))
    else some (.save task (triageRecord lower stored card error))

/-- `report["rollback"]`. -/
def RollbackAudit.of (state : RepairRollbackState) (details : RollbackDetails) : RollbackAudit where
  taskId := state.rollbackTaskId
  trigger := state.trigger
  status := state.status
  manifestDigest := details.manifestDigest
  rollbackCommitSha := state.rollbackCommitSha
  requestedBy := state.requestedBy
  failureCode := details.failureCode
  failureMessage := state.failureMessage

/-- `persist_repair_rollback` up to its write; `clock` is when it read the broker. -/
def rollbackWrite
    (broker : Broker)
    (details : TaskId → RollbackDetails)
    (clock : Nat)
    (row : Option TriageRow)
    (task : TaskId) : Option PendingWrite :=
  match broker.getTask task, (broker.tasks task).repairRollbackState, row with
  | .ok (some _), some state, some row =>
    some (.mergeRollback task row.run.repairReport ⟨RollbackAudit.of state (details task), clock⟩)
  | _, _, _ => none

/-- The table, the broker and the writers between read and write. -/
structure RunStore where
  table : TriageTable
  broker : Broker
  details : TaskId → RollbackDetails
  clock : Nat
  pending : List PendingWrite

/-- One move of a writer or of the rest of the system. -/
inductive RunStoreOp where
  /-- Anything else changes the broker. -/
  | brokerChanges (broker : Broker) (details : TaskId → RollbackDetails)
  | beginTerminal (task : TaskId) (error : String)
  | beginRollback (task : TaskId)
  | updateIdentity (task : TaskId) (name : String)
  /-- A pending write runs. -/
  | land (index : Nat)
  /-- A pending write is refused, or its process dies. -/
  | drop (index : Nat)

namespace RunStore

/-- The writer has read. -/
def began (s : RunStore) (write : Option PendingWrite) : RunStore :=
  { s with clock := s.clock + 1, pending := s.pending ++ write.toList }

/-- One move; `lower` is `str.lower`. -/
def step (lower : List Char → List Char) (s : RunStore) : RunStoreOp → RunStore
  | .brokerChanges broker details => { s with broker := broker, details := details }
  | .beginTerminal task error =>
    s.began (terminalWrite s.broker lower (s.table.rowOf task).isSome task error)
  | .beginRollback task =>
    s.began (rollbackWrite s.broker s.details s.clock (s.table.rowOf task) task)
  | .updateIdentity task name => { s with table := s.table.updateTriageRunIdentity task name }
  | .land index =>
    match s.pending[index]? with
    | some write => { s with table := write.apply s.table, pending := s.pending.eraseIdx index }
    | none => s
  | .drop index => { s with pending := s.pending.eraseIdx index }

end RunStore

end MrAgent
