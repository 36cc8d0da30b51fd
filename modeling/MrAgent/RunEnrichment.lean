import MrAgent.TriageRunStore

namespace MrAgent

open UniqueTable TransitionSystem

/-!
# Enrichment of triage runs

A display name or a rollback audit that a row holds is kept by a write of the
row exactly if the write is not the replacement of an enriched row, not a report
without the audit that the row has, and not an older audit. Runs of such writes
keep every enrichment; a repeated terminal record loses both.
-/

namespace TriageTable

variable {table : TriageTable} {task other : TaskId}

@[simp]
theorem ofTask_iff {row : TriageRow} : ofTask task row = true ↔ row.taskId = some task := by
  simp [ofTask]

theorem rowOf_modifyTask
    (change : TriageRow → TriageRow)
    (keys : ∀ row, (change row).id = row.id ∧ (change row).taskId = row.taskId) :
    (table.modifyTask task change keys).rowOf other =
      if other = task then (table.rowOf other).map change else table.rowOf other := by
  have sameKey : ofTask other ∘ Table.changed (ofTask task) change = ofTask other := by
    funext row
    simp only [Function.comp_apply, Table.changed]
    split
    · simp [ofTask, (keys row).2]
    · rfl
  unfold rowOf modifyTask
  rw [Table.modify_rows, List.find?_map, sameKey]
  cases found : table.rows.find? (ofTask other) with
  | none =>
      simp
  | some row =>
      have owner : row.taskId = some other := ofTask_iff.mp (List.find?_some found)
      by_cases same : other = task
      · simp [Table.changed, ofTask, owner, same]
      · simp [Table.changed, ofTask, owner, same]

theorem le_foldr_max {values : List Nat} {value : Nat} (member : value ∈ values) :
    value ≤ values.foldr max 0 := by
  induction values with
  | nil =>
      cases member
  | cons first rest ih =>
      rw [List.foldr_cons]
      rcases List.mem_cons.mp member with rfl | later
      · exact Nat.le_max_left _ _
      · exact Nat.le_trans (ih later) (Nat.le_max_right _ _)

theorem id_lt_nextId {row : TriageRow} (member : row ∈ table.rows) : row.id < table.nextId :=
  Nat.lt_succ_of_le (le_foldr_max (List.mem_map_of_mem member))

theorem rowOf_eq_none : table.rowOf task = none ↔ ∀ row ∈ table.rows, row.taskId ≠ some task := by
  simp [rowOf]

theorem rows_insert
    {record : TriageRecord}
    (named : record.taskId = some task)
    (absent : table.rowOf task = none) :
    (table.insertOrIgnore { toTriageRecord := record, id := table.nextId }).rows =
      table.rows ++ [{ toTriageRecord := record, id := table.nextId }] := by
  rcases table.insertOrIgnore_eq { toTriageRecord := record, id := table.nextId } with
    ⟨_, row, member, clash⟩ | inserted
  · have below := id_lt_nextId member
    have free := rowOf_eq_none.mp absent row member
    simp only [triageIndexes, Bool.or_eq_true, beq_iff_eq, Bool.and_eq_true, named] at clash
    rcases clash with same | ⟨_, same⟩
    · omega
    · exact absurd same.symm free
  · exact inserted

theorem rowOf_saveTriageRun
    {record : TriageRecord}
    (named : record.taskId = some task) :
    (table.saveTriageRun record).rowOf other =
      if other = task then
        some { toTriageRecord := record
               id := ((table.rowOf task).map (·.id)).getD table.nextId }
      else table.rowOf other := by
  unfold saveTriageRun
  simp only [named]
  cases present : table.rowOf task with
  | some row =>
      simp only [Option.isSome_some, if_true, rowOf_modifyTask]
      split
      · rename_i same
        have owner : row.taskId = some task := by
          have found := List.find?_some present
          simpa using found
        subst other
        simp [present, overwrite, ← named, owner]
      · rfl
  | none =>
      simp only [Option.isSome_none, Bool.false_eq_true, if_false, rowOf,
        rows_insert named present, List.find?_append]
      split
      · rename_i same
        subst other
        have absent : table.rows.find? (ofTask task) = none := present
        simp [absent, ofTask, named]
      · rename_i different
        have apart : ¬task = other := fun equal => different equal.symm
        simp [ofTask, named, apart]

theorem rowOf_updateTriageRunIdentity (name : String) :
    (table.updateTriageRunIdentity task name).rowOf other =
      if other = task ∧ name ≠ "" then (table.rowOf other).map (rename name)
      else table.rowOf other := by
  unfold updateTriageRunIdentity
  by_cases blank : name = ""
  · simp [blank]
  · simp [blank, rowOf_modifyTask]

theorem rowOf_updateTriageRunRepairReport
    (report : RepairReport)
    (rollback : Option (Versioned RollbackAudit)) :
    (table.updateTriageRunRepairReport task report rollback).rowOf other =
      if other = task then (table.rowOf other).map (withReport report rollback)
      else table.rowOf other :=
  rowOf_modifyTask _ _

theorem row_unique
    {first second : TriageRow}
    (left : first ∈ table.rows)
    (right : second ∈ table.rows)
    (ofFirst : first.taskId = some task)
    (ofSecond : second.taskId = some task) :
    first = second := by
  apply Table.eq_of_clash left right
  simp [triageIndexes, ofFirst, ofSecond]

end TriageTable

/-- The columns that the table shows of every task. -/
def TriageTable.runs (table : TriageTable) (task : TaskId) : Option TriageRun :=
  (table.rowOf task).map (·.run)

theorem terminalWrite_persists
    {w : TerminalWorld}
    {env : TerminalEnv}
    {table : TriageTable}
    {task : TaskId}
    (error : String)
    (rows : w.rows = table.runs)
    (saves : env.saves task = true) :
    (w.persistRepairTerminal env task error).1.rows =
      (((terminalWrite w.broker env.lower (table.rowOf task).isSome task error).map
        (·.apply table)).getD table).runs := by
  unfold TerminalWorld.persistRepairTerminal terminalWrite
  have hasRow : (w.rows task).isSome = (table.rowOf task).isSome := by
    rw [rows, TriageTable.runs, Option.isSome_map]
  cases w.broker.getTask task with
  | error message =>
      exact rows
  | ok read =>
      cases read with
      | none =>
          exact rows
      | some stored =>
          simp only [saves, hasRow, Bool.not_true, Bool.or_false]
          split
          · exact rows
          · split
            · funext other
              simp only [TerminalWorld.updateRepairReport, rows, Option.map_some, Option.getD_some,
                PendingWrite.apply, TriageTable.runs,
                TriageTable.rowOf_updateTriageRunRepairReport]
              by_cases same : other = task
              · subst other
                simp [TriageTable.withReport, Function.comp_def]
              · simp [same, TriageTable.runs]
            · funext other
              simp only [TerminalWorld.saveTriageRun, rows, Option.map_some, Option.getD_some,
                PendingWrite.apply, TriageTable.runs]
              rw [@TriageTable.rowOf_saveTriageRun table task other (terminalRecord task _) rfl]
              by_cases same : other = task
              · subst other
                simp [terminalRecord]
              · simp [same, TriageTable.runs]

/-! ## Kept and newer values -/

/-- The same value, or one with a later version. -/
def Versioned.Newer {α : Type} (old new : Versioned α) : Prop :=
  old.version < new.version ∨ (new.value = old.value ∧ old.version ≤ new.version)

theorem Versioned.Newer.trans
    {α : Type}
    {first second third : Versioned α}
    (left : first.Newer second)
    (right : second.Newer third) :
    first.Newer third := by
  rcases left with older | ⟨same, notNewer⟩
  · rcases right with later | ⟨_, notLater⟩
    · exact Or.inl (Nat.lt_trans older later)
    · exact Or.inl (Nat.lt_of_lt_of_le older notLater)
  · rcases right with later | ⟨again, notLater⟩
    · exact Or.inl (Nat.lt_of_le_of_lt notNewer later)
    · exact Or.inr ⟨again.trans same, Nat.le_trans notNewer notLater⟩

/-- A field that holds a value goes on holding it or a newer one. -/
def FieldKept {α : Type} (before after : Option (Versioned α)) : Prop :=
  ∀ old, before = some old → ∃ new, after = some new ∧ old.Newer new

theorem FieldKept.refl {α : Type} (field : Option (Versioned α)) : FieldKept field field :=
  fun old held => ⟨old, held, Or.inr ⟨rfl, Nat.le_refl _⟩⟩

theorem FieldKept.trans
    {α : Type}
    {first second third : Option (Versioned α)}
    (left : FieldKept first second)
    (right : FieldKept second third) :
    FieldKept first third := by
  intro old held
  obtain ⟨middle, found, newer⟩ := left old held
  obtain ⟨last, found', newer'⟩ := right middle found
  exact ⟨last, found', newer.trans newer'⟩

@[simp]
theorem fieldKept_none {α : Type} (field : Option (Versioned α)) :
    FieldKept field none ↔ field = none := by
  constructor
  · intro kept
    cases field with
    | none =>
        rfl
    | some old =>
        obtain ⟨new, impossible, _⟩ := kept old rfl
        cases impossible
  · rintro rfl
    exact FieldKept.refl none

/-- The display name and the audit of a task are kept. -/
def EnrichmentKept (before after : TriageTable) : Prop :=
  ∀ task,
    FieldKept ((before.rowOf task).bind (·.feishuUserName))
        ((after.rowOf task).bind (·.feishuUserName)) ∧
      FieldKept ((before.rowOf task).bind (·.rollback)) ((after.rowOf task).bind (·.rollback))

theorem EnrichmentKept.refl (table : TriageTable) : EnrichmentKept table table :=
  fun _ => ⟨FieldKept.refl _, FieldKept.refl _⟩

theorem EnrichmentKept.trans
    {first second third : TriageTable}
    (left : EnrichmentKept first second)
    (right : EnrichmentKept second third) :
    EnrichmentKept first third :=
  fun task => ⟨(left task).1.trans (right task).1, (left task).2.trans (right task).2⟩

/-- The row of a task without enrichment, or no row. -/
def Unenriched (row : Option TriageRow) : Prop :=
  row.bind (·.feishuUserName) = none ∧ row.bind (·.rollback) = none

/-- The write finds a row from which it takes no enrichment. -/
def PendingWrite.Harmless (write : PendingWrite) (table : TriageTable) : Prop :=
  match write with
  | .save task _ => Unenriched (table.rowOf task)
  | .mergeReport task _ => (table.rowOf task).bind (·.rollback) = none
  | .mergeRollback task _ audit =>
    ∀ old ∈ (table.rowOf task).bind (·.rollback),
      old.version < audit.version ∨ audit.value = old.value

instance PendingWrite.decidableHarmless
    (write : PendingWrite)
    (table : TriageTable) : Decidable (write.Harmless table) :=
  match write with
  | .save _ _ => inferInstanceAs (Decidable (_ ∧ _))
  | .mergeReport _ _ => inferInstanceAs (Decidable (_ = none))
  | .mergeRollback _ _ _ => inferInstanceAs (Decidable (∀ old ∈ Option.bind _ _, _))

theorem refreshed_newer_iff {old new : Versioned RollbackAudit} :
    old.Newer (TriageTable.refreshed (some old) new) ↔
      old.version < new.version ∨ new.value = old.value := by
  simp only [TriageTable.refreshed, Versioned.Newer]
  split
  · rename_i same
    simp [same, Nat.le_max_left]
  · rename_i different
    have apart : ¬new.value = old.value := fun equal => different equal.symm
    simp [apart]

@[simp]
theorem terminalRecord_feishuUserName (task : TaskId) (run : TriageRun) :
    (terminalRecord task run).feishuUserName = none :=
  rfl

@[simp]
theorem terminalRecord_rollback (task : TaskId) (run : TriageRun) :
    (terminalRecord task run).rollback = none :=
  rfl

theorem enrichmentKept_of_task
    {before after : TriageTable}
    {task : TaskId}
    (others : ∀ other, other ≠ task → after.rowOf other = before.rowOf other) :
    EnrichmentKept before after ↔
      FieldKept ((before.rowOf task).bind (·.feishuUserName))
          ((after.rowOf task).bind (·.feishuUserName)) ∧
        FieldKept ((before.rowOf task).bind (·.rollback))
          ((after.rowOf task).bind (·.rollback)) := by
  constructor
  · intro kept
    exact kept task
  · intro kept other
    by_cases same : other = task
    · rw [same]
      exact kept
    · rw [others other same]
      exact ⟨FieldKept.refl _, FieldKept.refl _⟩

theorem apply_keeps_iff (write : PendingWrite) (table : TriageTable) :
    EnrichmentKept table (write.apply table) ↔ write.Harmless table := by
  cases write with
  | save task run =>
      have rowAfter := fun other => @TriageTable.rowOf_saveTriageRun table task other
        (terminalRecord task run) rfl
      rw [@enrichmentKept_of_task _ _ task fun other different => by
        simp [PendingWrite.apply, rowAfter other, different]]
      simp only [PendingWrite.apply, PendingWrite.Harmless, Unenriched, rowAfter task, if_true,
        Option.bind_some, terminalRecord_feishuUserName, terminalRecord_rollback, fieldKept_none]
  | mergeReport task report =>
      have rowAfter := fun other =>
        @TriageTable.rowOf_updateTriageRunRepairReport table task other report none
      rw [@enrichmentKept_of_task _ _ task fun other different => by
        simp [PendingWrite.apply, rowAfter other, different]]
      simp only [PendingWrite.apply, PendingWrite.Harmless, rowAfter task, if_true]
      cases table.rowOf task with
      | none =>
          simp
      | some row =>
          simpa [TriageTable.withReport] using fun _ => FieldKept.refl row.feishuUserName
  | mergeRollback task report audit =>
      have rowAfter := fun other =>
        @TriageTable.rowOf_updateTriageRunRepairReport table task other report (some audit)
      rw [@enrichmentKept_of_task _ _ task fun other different => by
        simp [PendingWrite.apply, rowAfter other, different]]
      simp only [PendingWrite.apply, PendingWrite.Harmless, rowAfter task, if_true]
      cases table.rowOf task with
      | none =>
          simp
      | some row =>
          simp only [Option.map_some, Option.bind_some, TriageTable.withReport, FieldKept.refl,
            true_and]
          constructor
          · intro kept old held
            obtain ⟨new, stored, newer⟩ := kept old held
            rw [held] at stored
            cases stored
            exact refreshed_newer_iff.mp newer
          · intro harmless old held
            rw [held]
            exact ⟨_, rfl, refreshed_newer_iff.mpr (harmless old held)⟩

theorem identity_keeps (table : TriageTable) (task : TaskId) (name : String) :
    EnrichmentKept table (table.updateTriageRunIdentity task name) := by
  rw [@enrichmentKept_of_task _ _ task fun other different => by
    simp [TriageTable.rowOf_updateTriageRunIdentity, different]]
  rw [TriageTable.rowOf_updateTriageRunIdentity]
  split
  · cases table.rowOf task with
    | none =>
        exact ⟨FieldKept.refl _, FieldKept.refl _⟩
    | some row =>
        refine ⟨?_, FieldKept.refl _⟩
        intro old held
        have stored : row.feishuUserName = some old := held
        refine ⟨⟨name, old.version + 1⟩, ?_, Or.inl (Nat.lt_succ_self _)⟩
        simp [TriageTable.rename, stored]
  · exact ⟨FieldKept.refl _, FieldKept.refl _⟩

/-! ## Runs -/

/-- A pending write runs only where it is harmless. -/
def HarmlessStep (s : RunStore) : RunStoreOp → Prop
  | .land index => ∀ write ∈ s.pending[index]?, write.Harmless s.table
  | _ => True

instance decidableHarmlessStep (s : RunStore) (op : RunStoreOp) : Decidable (HarmlessStep s op) :=
  match op with
  | .land index =>
    inferInstanceAs (Decidable (∀ write ∈ s.pending[index]?, write.Harmless s.table))
  | .brokerChanges _ _ | .beginTerminal _ _ | .beginRollback _ | .updateIdentity _ _ | .drop _ =>
    isTrue trivial

theorem step_keeps_iff (lower : List Char → List Char) (s : RunStore) (op : RunStoreOp) :
    EnrichmentKept s.table (s.step lower op).table ↔ HarmlessStep s op := by
  cases op with
  | land index =>
      simp only [RunStore.step, HarmlessStep]
      cases found : s.pending[index]? with
      | none =>
          simpa using EnrichmentKept.refl s.table
      | some write =>
          simpa using apply_keeps_iff write s.table
  | updateIdentity task name =>
      exact iff_of_true (identity_keeps s.table task name) trivial
  | brokerChanges broker details =>
      exact iff_of_true (EnrichmentKept.refl s.table) trivial
  | beginTerminal task error =>
      exact iff_of_true (EnrichmentKept.refl s.table) trivial
  | beginRollback task =>
      exact iff_of_true (EnrichmentKept.refl s.table) trivial
  | drop index =>
      exact iff_of_true (EnrichmentKept.refl s.table) trivial

/--
In every run whose writes are harmless, display names and audits are kept or
replaced by newer ones; a write that is not harmless loses one. A task has one
row.
-/
theorem enrichment_kept_along_harmless_runs
    (lower : List Char → List Char)
    (start : RunStore) :
    (∀ final, Reaches (RunStore.step lower) HarmlessStep start final →
      EnrichmentKept start.table final.table) ∧
    (∀ final, Reaches (RunStore.step lower) (fun _ _ => True) start final →
      (∀ op, EnrichmentKept final.table (final.step lower op).table ↔ HarmlessStep final op) ∧
      ∀ task first second, first ∈ final.table.rows → second ∈ final.table.rows →
        first.taskId = some task → second.taskId = some task → first = second) := by
  refine ⟨?_, ?_⟩
  · intro final run
    exact run.relates (fun before after => EnrichmentKept before.table after.table)
      (fun s => EnrichmentKept.refl s.table)
      EnrichmentKept.trans
      (fun s op harmless => (step_keeps_iff lower s op).mpr harmless)
  · intro final _
    exact ⟨step_keeps_iff lower final, fun task first second => TriageTable.row_unique⟩

namespace EnrichmentSample

open Sample

/-- The repair has failed and its rollback was requested. -/
def failed : Broker :=
  RollbackSample.final.broker

/-- The rollback has succeeded. -/
def rolledBack : Broker :=
  { failed with
    tasks := Function.update failed.tasks repair
      { failed.tasks repair with
        repairRollbackState := (failed.tasks repair).repairRollbackState.map fun state =>
          { state with status := .succeeded, rollbackCommitSha := "reverted" } } }

/-- Nothing is stored yet. -/
def start : RunStore where
  table := Table.empty triageIndexes
  broker := failed
  details := fun _ => {}
  clock := 0
  pending := []

/-- `str.lower` on these texts. -/
def lower : List Char → List Char :=
  List.map Char.toLower

/-- The terminal record is saved, named and given the audit of its rollback. -/
def enriching : List RunStoreOp :=
  [.beginTerminal repair "", .land 0, .updateIdentity repair "赵军",
    .brokerChanges rolledBack fun _ => {}, .beginRollback repair, .land 0]

def enriched : RunStore :=
  enriching.foldl (RunStore.step lower) start

/-- The terminal record is saved once more. -/
def replayed : RunStore :=
  [RunStoreOp.beginTerminal repair "", .land 0].foldl (RunStore.step lower) enriched

/-- The name and the rollback status that the repair's row shows. -/
def shown (s : RunStore) : Option (Option String × Option RepairRollbackStatus) :=
  (s.table.rowOf repair).map fun row =>
    (row.feishuUserName.map (·.value), row.rollback.map (·.value.status))

end EnrichmentSample

open EnrichmentSample in
theorem corrected_name_kept :
    let final := [RunStoreOp.updateIdentity Sample.repair "赵军军", .beginRollback Sample.repair,
      .land 0].foldl (RunStore.step lower) enriched
    shown final = some (some "赵军军", some .succeeded) ∧
      EnrichmentKept enriched.table final.table := by
  intro final
  refine ⟨by decide +kernel, ?_⟩
  apply (enrichment_kept_along_harmless_runs lower enriched).1 final
  exact Reaches.of_follows ⟨trivial, trivial, by decide +kernel, trivial⟩

open EnrichmentSample in
/-- A repeated terminal record takes the name and the audit from the row. -/
theorem replay_loses_enrichment :
    shown enriched = some (some "赵军", some .succeeded) ∧
      shown replayed = some (none, none) ∧
      Reaches (RunStore.step lower) (fun _ _ => True) start replayed ∧
      ¬EnrichmentKept enriched.table replayed.table := by
  have before : shown enriched = some (some "赵军", some .succeeded) := by
    decide +kernel
  have after : shown replayed = some (none, none) := by
    decide +kernel
  refine ⟨before, after, ?_, ?_⟩
  · have first : Reaches (RunStore.step lower) (fun _ _ => True) start enriched :=
      Reaches.of_follows ⟨trivial, trivial, trivial, trivial, trivial, trivial, trivial⟩
    exact first.trans (Reaches.of_follows ⟨trivial, trivial, trivial⟩)
  · intro kept
    obtain ⟨row, stored, held⟩ := Option.map_eq_some_iff.mp before
    obtain ⟨name, named, _⟩ := Option.map_eq_some_iff.mp (congrArg Prod.fst held)
    obtain ⟨newer, found, _⟩ := (kept Sample.repair).1 name (by rw [stored]; exact named)
    obtain ⟨later, present, named'⟩ := Option.bind_eq_some_iff.mp found
    obtain ⟨last, again, lost⟩ := Option.map_eq_some_iff.mp after
    rw [present] at again
    cases again
    have none := congrArg Prod.fst lost
    rw [named'] at none
    cases none

end MrAgent
