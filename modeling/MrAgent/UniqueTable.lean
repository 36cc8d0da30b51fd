import Mathlib

namespace UniqueTable

/-!
# Tables with unique indexes

A table is a list of rows of which no two clash. Two rows clash when some
unique index, the primary key among them, gives both the same key; a partial
index gives a key to some rows only. The operations are those of SQL: an
insert that is refused, ignored or replaces the rows it clashes with, and an
update that is refused as a whole when two of its rows would clash.
-/

/-- The unique indexes of a table, as the relation between rows that share a key. -/
structure Indexes (Row : Type) where
  clash : Row → Row → Bool
  symm : ∀ first second, clash first second = clash second first

/-- Rows of which no two clash. -/
structure Table {Row : Type} (indexes : Indexes Row) where
  rows : List Row
  unique : rows.Pairwise fun first second => indexes.clash first second = false

namespace Table

variable {Row : Type} {indexes : Indexes Row}

/-- The table without rows. -/
def empty (indexes : Indexes Row) : Table indexes where
  rows := []
  unique := List.Pairwise.nil

variable {rows : List Row}

theorem unique_snoc
    {row : Row}
    (unique : rows.Pairwise fun first second => indexes.clash first second = false)
    (free : ∀ other ∈ rows, indexes.clash row other = false) :
    (rows ++ [row]).Pairwise fun first second => indexes.clash first second = false := by
  rw [List.pairwise_append]
  refine ⟨unique, List.pairwise_singleton _ row, ?_⟩
  intro other member last inLast
  rw [List.mem_singleton] at inLast
  subst last
  rw [indexes.symm]
  exact free other member

local instance (priority := 1200) decidableRows (p : Row → Prop) [DecidablePred p] (rows : List Row) :
    Decidable (∀ row, row ∈ rows → p row) :=
  List.decidableBAll p rows

/-- `INSERT`: refused if the row clashes. -/
def insert (table : Table indexes) (row : Row) : Option (Table indexes) :=
  if free : ∀ other ∈ table.rows, indexes.clash row other = false then
    some { rows := table.rows ++ [row], unique := unique_snoc table.unique free }
  else none

/-- `INSERT OR IGNORE`: left out if the row clashes. -/
def insertOrIgnore (table : Table indexes) (row : Row) : Table indexes :=
  (table.insert row).getD table

/-- `INSERT OR IGNORE` of one row after the other. -/
def insertAll (table : Table indexes) (rows : List Row) : Table indexes :=
  rows.foldl insertOrIgnore table

/-- `INSERT OR REPLACE`: every row that clashes goes. -/
def insertOrReplace (table : Table indexes) (row : Row) : Table indexes where
  rows := table.rows.filter (fun other => !indexes.clash row other) ++ [row]
  unique := by
    apply unique_snoc (table.unique.filter _)
    intro other member
    simpa using (List.mem_filter.mp member).2

/-- The rows that an update selects, changed. -/
def changed (select : Row → Bool) (change : Row → Row) (row : Row) : Row :=
  if select row then change row else row

/-- `UPDATE ... WHERE`: refused if two rows would clash. -/
def update
    (table : Table indexes)
    (select : Row → Bool)
    (change : Row → Row) : Option (Table indexes) :=
  if unique : (table.rows.map (changed select change)).Pairwise fun first second =>
      indexes.clash first second = false then
    some { rows := table.rows.map (changed select change), unique := unique }
  else none

/-- An `UPDATE` of columns that no index covers. -/
def modify
    (table : Table indexes)
    (select : Row → Bool)
    (change : Row → Row)
    (apart : ∀ first second, indexes.clash first second = false →
      indexes.clash (changed select change first) (changed select change second) = false) :
    Table indexes where
  rows := table.rows.map (changed select change)
  unique := table.unique.map _ apart

/-- `DELETE ... WHERE`. -/
def delete (table : Table indexes) (select : Row → Bool) : Table indexes where
  rows := table.rows.filter fun row => !select row
  unique := table.unique.filter _

variable {table next : Table indexes} {row other : Row}

theorem eq_of_clash
    {first second : Row}
    (left : first ∈ table.rows)
    (right : second ∈ table.rows)
    (same : indexes.clash first second = true) :
    first = second := by
  by_contra different
  have symmetric : Std.Symm fun first second => indexes.clash first second = false :=
    ⟨fun first second clear => by rw [indexes.symm, clear]⟩
  have apart := table.unique.forall left right different
  rw [apart] at same
  cases same

theorem insert_eq_some
    (inserted : table.insert row = some next) :
    (∀ other ∈ table.rows, indexes.clash row other = false) ∧ next.rows = table.rows ++ [row] := by
  unfold insert at inserted
  split at inserted
  · rename_i free
    cases inserted
    exact ⟨free, rfl⟩
  · cases inserted

theorem insertOrIgnore_eq (table : Table indexes) (row : Row) :
    (table.insertOrIgnore row = table ∧ ∃ other ∈ table.rows, indexes.clash row other = true) ∨
      (table.insertOrIgnore row).rows = table.rows ++ [row] := by
  unfold insertOrIgnore insert
  split
  · exact Or.inr rfl
  · rename_i taken
    simp only [not_forall, Bool.not_eq_false] at taken
    obtain ⟨other, member, clash⟩ := taken
    exact Or.inl ⟨rfl, other, member, clash⟩

theorem insertAll_eq (table : Table indexes) (rows : List Row) :
    ∃ fresh, fresh.Sublist rows ∧ (table.insertAll rows).rows = table.rows ++ fresh := by
  induction rows generalizing table with
  | nil =>
      exact ⟨[], List.Sublist.refl [], (List.append_nil table.rows).symm⟩
  | cons row rest ih =>
      obtain ⟨fresh, among, appended⟩ := ih (table.insertOrIgnore row)
      rcases table.insertOrIgnore_eq row with ⟨same, _⟩ | inserted
      · rw [same] at appended
        exact ⟨fresh, among.cons row, by rw [insertAll, List.foldl_cons, same]; exact appended⟩
      · refine ⟨row :: fresh, among.cons_cons row, ?_⟩
        rw [inserted, List.append_assoc] at appended
        exact appended

theorem insertAll_of_free
    (table : Table indexes)
    (apart : rows.Pairwise fun first second => indexes.clash first second = false)
    (free : ∀ row ∈ rows, ∀ other ∈ table.rows, indexes.clash row other = false) :
    (table.insertAll rows).rows = table.rows ++ rows := by
  induction rows generalizing table with
  | nil =>
      exact (List.append_nil table.rows).symm
  | cons row rest ih =>
      obtain ⟨head, tail⟩ := List.pairwise_cons.mp apart
      have inserted : (table.insertOrIgnore row).rows = table.rows ++ [row] := by
        rcases table.insertOrIgnore_eq row with ⟨_, other, member, clash⟩ | inserted
        · rw [free row List.mem_cons_self other member] at clash
          cases clash
        · exact inserted
      have restFree : ∀ later ∈ rest, ∀ other ∈ (table.insertOrIgnore row).rows,
          indexes.clash later other = false := by
        intro later inRest other member
        rw [inserted] at member
        rcases List.mem_append.mp member with old | new
        · exact free later (List.mem_cons_of_mem row inRest) other old
        · rw [List.mem_singleton.mp new, indexes.symm]
          exact head later inRest
      have whole := ih (table.insertOrIgnore row) tail restFree
      rw [inserted, List.append_assoc] at whole
      exact whole

theorem mem_insertAll (table : Table indexes) {rows : List Row} {row : Row} (member : row ∈ rows) :
    ∃ other ∈ (table.insertAll rows).rows, other = row ∨ indexes.clash row other = true := by
  induction rows generalizing table with
  | nil =>
      cases member
  | cons first rest ih =>
      rcases List.mem_cons.mp member with rfl | later
      · have kept : ∃ other ∈ (table.insertOrIgnore row).rows,
            other = row ∨ indexes.clash row other = true := by
          rcases table.insertOrIgnore_eq row with ⟨same, other, present, clash⟩ | inserted
          · rw [same]
            exact ⟨other, present, Or.inr clash⟩
          · rw [inserted]
            exact ⟨row, List.mem_append_right _ (List.mem_singleton_self row), Or.inl rfl⟩
        obtain ⟨other, present, found⟩ := kept
        obtain ⟨fresh, _, appended⟩ := insertAll_eq (table.insertOrIgnore row) rest
        have result : (table.insertAll (row :: rest)).rows =
            (table.insertOrIgnore row).rows ++ fresh := appended
        exact ⟨other, by rw [result]; exact List.mem_append_left fresh present, found⟩
      · exact ih (table.insertOrIgnore first) later

@[simp]
theorem mem_insertOrReplace :
    other ∈ (table.insertOrReplace row).rows ↔
      (other ∈ table.rows ∧ indexes.clash row other = false) ∨ other = row := by
  simp [insertOrReplace]

theorem update_rows
    {select : Row → Bool}
    {change : Row → Row}
    (updated : table.update select change = some next) :
    next.rows = table.rows.map (changed select change) := by
  unfold update at updated
  split at updated
  · cases updated
    rfl
  · cases updated

@[simp]
theorem modify_rows
    (select : Row → Bool)
    (change : Row → Row)
    (apart) :
    (table.modify select change apart).rows = table.rows.map (changed select change) :=
  rfl

end Table

end UniqueTable
