import Mathlib
import MrAgent.BrokerModel
import MrAgent.TransitionSystem

namespace MrAgent

open TransitionSystem

/-!
# The merge gate of inline suggestions

`pr_agent/suggestions/inline_gate_status.py` keeps a commit status: `pending`
while a published suggestion is open, `success` when all are applied or
resolved. A publication saves its rows and then sets the status; a
recomputation reads the rows and then sets the status. Each read and each
write is one step here, and the steps of any number of processes interleave.
A storage call or a GitLab call may fail at any step.
-/

/-! ## Settings -/

local instance lawfulProjects : LawfulBEq (List Char) := inferInstance

/-- `_project_in_allowlist`. -/
def projectInAllowlist (projectId : String) (allowlist : List String) : Bool :=
  let pid := strip projectId.toList
  let allow := (allowlist.map fun entry => strip entry.toList).filter (· ≠ [])
  let basename := (pid.reverse.takeWhile (· ≠ '/')).reverse
  "*".toList ∈ allow || pid ∈ allow || basename ∈ allow

/-- One merge request and the settings of its gate. -/
structure InlineGate where
  project : String
  mrIid : String
  gateEnabled : Bool
  allowlist : List String
deriving DecidableEq

/-- `is_enabled`. -/
def InlineGate.isEnabled (gate : InlineGate) : Bool :=
  gate.gateEnabled && projectInAllowlist gate.project gate.allowlist

/-! ## Rows -/

/-- A row of `published_suggestions`, the columns the gate reads or marks. -/
structure PublishedRow where
  project : String
  mrIid : String
  suggestionId : String
  discussionId : Option String
  noteId : Option String
  effectId : Option String
  appliedAt : Option String := none
  applyUser : String := ""
  resolvedAt : Option String := none
  resolveUser : String := ""
deriving DecidableEq

namespace PublishedRow

/-- The row is applied or resolved. -/
def handled (row : PublishedRow) : Bool :=
  row.appliedAt.getD "" ≠ "" || row.resolvedAt.getD "" ≠ ""

/-- The row belongs to the merge request. -/
def ofMr (row : PublishedRow) (gate : InlineGate) : Bool :=
  row.project = gate.project && row.mrIid = gate.mrIid

end PublishedRow

/-- What one item of a publication's loop hands to the store. -/
structure PublishedRecord where
  suggestionId : String
  discussionId : Option String
  noteId : Option String
  effectId : Option String
deriving DecidableEq

/-- The inserted row; the marks are `NULL`. -/
def PublishedRecord.row (record : PublishedRecord) (gate : InlineGate) : PublishedRow where
  project := gate.project
  mrIid := gate.mrIid
  suggestionId := record.suggestionId
  discussionId := record.discussionId
  noteId := record.noteId
  effectId := record.effectId

/-- The row that `ON CONFLICT(effect_id)` updates. -/
def PublishedRecord.conflicts (record : PublishedRecord) (row : PublishedRow) : Bool :=
  record.effectId.isSome && row.effectId = record.effectId

/-- `save_published_suggestion`: the rows after it. -/
def savePublishedSuggestion
    (gate : InlineGate)
    (rows : List PublishedRow)
    (record : PublishedRecord) : List PublishedRow :=
  if rows.any record.conflicts then
    rows.map fun row =>
      if record.conflicts row then
        { row with discussionId := record.discussionId, noteId := record.noteId }
      else row
  else rows ++ [record.row gate]

/-- `mark_applied`; only rows without a time are written. -/
def markApplied (rows : List PublishedRow) (discussion user time : String) : List PublishedRow :=
  rows.map fun row =>
    if row.discussionId = some discussion && row.appliedAt = none then
      { row with appliedAt := some time, applyUser := user }
    else row

/-- `mark_resolved`; only rows without a time are written. -/
def markResolved (rows : List PublishedRow) (discussion user time : String) : List PublishedRow :=
  rows.map fun row =>
    if row.discussionId = some discussion && row.resolvedAt = none then
      { row with resolvedAt := some time, resolveUser := user }
    else row

/-- `get_published_suggestions`: a failed read is an empty list. -/
def getPublishedSuggestions
    (gate : InlineGate)
    (rows : List PublishedRow)
    (readable : Bool) : List PublishedRow :=
  if readable then rows.filter (·.ofMr gate) else []

/-- `all_threads_satisfied`: nothing to gate on is satisfied. -/
def allThreadsSatisfied
    (gate : InlineGate)
    (rows : List PublishedRow)
    (readable : Bool) : Bool :=
  (getPublishedSuggestions gate rows readable).all (·.handled)

/-! ## Processes -/

/-- The state of a commit status. -/
inductive GateState where
  | pending
  | success
deriving DecidableEq

/-- `publish_status` of one item of a publication. -/
inductive PublishStatus where
  | published
  | fallbackPublished
  | failed
deriving DecidableEq

/-- The first note of a discussion. -/
structure SuggestionNote where
  applied : Bool
  resolved : Bool
  resolvedBy : String
deriving DecidableEq

/-- One discussion of the Discussions API. -/
structure Discussion where
  id : String
  notes : List SuggestionNote
deriving DecidableEq

/-- One call of `mark_applied` or `mark_resolved`. -/
inductive ThreadMark where
  | applied (discussion user : String)
  | resolved (discussion user : String)
deriving DecidableEq

/-- The rows after a mark. -/
def ThreadMark.write (mark : ThreadMark) (rows : List PublishedRow) (time : String) :
    List PublishedRow :=
  match mark with
  | applied discussion user => markApplied rows discussion user time
  | resolved discussion user => markResolved rows discussion user time

/-- `note_by_disc`: the last discussion of an id wins. -/
def noteByDisc (discussions : List Discussion) (id : String) : Option SuggestionNote :=
  (discussions.reverse.find? fun d => d.id = id && !d.notes.isEmpty).bind (·.notes.head?)

/-- The marks that `sync_mr_threads` makes for the rows it has read. -/
def threadMarks (threads : List PublishedRow) (discussions : List Discussion) : List ThreadMark :=
  threads.flatMap fun row =>
    let discussion := row.discussionId.getD ""
    match noteByDisc discussions discussion with
    | none => []
    | some note =>
      (if note.applied then [.applied discussion ""] else []) ++
        if note.resolved then [.resolved discussion note.resolvedBy] else []

/--
A process publishes, with the rows it has inserted, synchronises, or is between
the read and the write of a recomputation.
-/
inductive GateProcess where
  | idle
  | publishing (rest : List (PublishStatus × PublishedRecord)) (published : Nat)
      (inserted : List Nat)
  | syncing (marks : List ThreadMark)
  | deciding (state : GateState) (seen : Nat)
deriving DecidableEq

namespace GateProcess

/-- The rows that a publication has inserted and not announced yet. -/
def inserted : GateProcess → List Nat
  | publishing _ _ rows => rows
  | _ => []

/-- The published items of a publication. -/
def published : GateProcess → Nat
  | publishing _ count _ => count
  | _ => 0

end GateProcess

/-- The store, the statuses of the gate's context, the head commit and the processes. -/
structure GateWorld where
  rows : List PublishedRow
  statuses : String → Option GateState
  head : String
  processes : Nat → GateProcess

/-- A step; `accepted` and `readable` say whether the call outside succeeded. -/
inductive GateOp where
  | publish (process : Nat) (results : List (PublishStatus × PublishedRecord))
  | save (process : Nat) (accepted : Bool)
  | applyPending (process : Nat) (sha : Option String) (accepted : Bool)
  | mark (mark : ThreadMark) (time : String) (accepted : Bool)
  | sync (process : Nat) (readable : Bool) (discussions : List Discussion)
  | syncThread (process : Nat) (time : String) (accepted : Bool)
  | read (process : Nat) (readable : Bool)
  | setStatus (process : Nat) (sha : Option String) (accepted : Bool)
  | push (sha : String)
deriving DecidableEq

namespace GateWorld

variable (gate : InlineGate) (w : GateWorld)

def enter (process : Nat) (state : GateProcess) : GateWorld :=
  { w with processes := Function.update w.processes process state }

/-- `_set`: the provider names the head it knows, and GitLab may refuse. -/
def set (state : GateState) (sha : Option String) (accepted : Bool) : GateWorld :=
  if state ≠ .success && !gate.isEnabled then w
  else
    match sha with
    | some sha =>
      if accepted then { w with statuses := Function.update w.statuses sha (some state) } else w
    | none => w

/-- One item of the publication's loop. -/
def saveItem
    (process : Nat)
    (item : PublishStatus × PublishedRecord)
    (rest : List (PublishStatus × PublishedRecord))
    (published : Nat)
    (inserted : List Nat)
    (accepted : Bool) : GateWorld :=
  if item.1 ≠ .published then w.enter process (.publishing rest published inserted)
  else if !accepted then w.enter process (.publishing rest (published + 1) inserted)
  else
    let rows := savePublishedSuggestion gate w.rows item.2
    let inserted :=
      if w.rows.length < rows.length then inserted ++ [w.rows.length] else inserted
    ({ w with rows := rows }).enter process (.publishing rest (published + 1) inserted)

/-- The read of `recompute`. -/
def readRows (process : Nat) (readable : Bool) : GateWorld :=
  w.enter process
    (.deciding (if allThreadsSatisfied gate w.rows readable then .success else .pending)
      (if readable then w.rows.length else 0))

/-- One step of the processes on the merge request. -/
def step : GateOp → GateWorld
  | .publish process results =>
    if w.processes process = .idle then w.enter process (.publishing results 0 []) else w
  | .save process accepted =>
    match w.processes process with
    | .publishing (item :: rest) published inserted =>
      w.saveItem gate process item rest published inserted accepted
    | _ => w
  | .applyPending process sha accepted =>
    match w.processes process with
    | .publishing [] published _ =>
      (if 0 < published && gate.isEnabled then w.set gate .pending sha accepted else w).enter
        process .idle
    | _ => w
  | .mark mark time accepted =>
    if accepted then { w with rows := mark.write w.rows time } else w
  | .sync process readable discussions =>
    if w.processes process = .idle then
      let threads := getPublishedSuggestions gate w.rows readable
      if threads = [] then w else w.enter process (.syncing (threadMarks threads discussions))
    else w
  | .syncThread process time accepted =>
    match w.processes process with
    | .syncing (mark :: rest) =>
      (if accepted then { w with rows := mark.write w.rows time } else w).enter process
        (.syncing rest)
    | _ => w
  | .read process readable =>
    match w.processes process with
    | .idle | .syncing [] => w.readRows gate process readable
    | _ => w
  | .setStatus process sha accepted =>
    match w.processes process with
    | .deciding state _ => (w.set gate state sha accepted).enter process .idle
    | _ => w
  | .push sha => { w with head := sha }

end GateWorld

/-! ## What the steps do to the rows -/

/-- Rows are kept in place: none changes its merge request, none becomes open again. -/
def RowsKept (before after : List PublishedRow) : Prop :=
  ∀ (i : Nat) (row : PublishedRow), before[i]? = some row →
    ∃ next, after[i]? = some next ∧ (∀ gate, next.ofMr gate = row.ofMr gate) ∧
      (row.handled = true → next.handled = true)

namespace RowsKept

variable {before after : List PublishedRow}

theorem refl (rows : List PublishedRow) : RowsKept rows rows :=
  fun _ row found => ⟨row, found, fun _ => rfl, id⟩

theorem map
    (rows : List PublishedRow)
    {change : PublishedRow → PublishedRow}
    (same : ∀ row gate, (change row).ofMr gate = row.ofMr gate)
    (kept : ∀ row, row.handled = true → (change row).handled = true) :
    RowsKept rows (rows.map change) := by
  intro i row found
  refine ⟨change row, ?_, same row, kept row⟩
  rw [List.getElem?_map, found, Option.map_some]

theorem trans
    {first second third : List PublishedRow}
    (left : RowsKept first second)
    (right : RowsKept second third) :
    RowsKept first third := by
  intro i row found
  obtain ⟨middle, there, mr, stays⟩ := left i row found
  obtain ⟨next, last, mr', stays'⟩ := right i middle there
  exact ⟨next, last, fun gate => (mr' gate).trans (mr gate), stays' ∘ stays⟩

theorem append (rows more : List PublishedRow) : RowsKept rows (rows ++ more) := by
  intro i row found
  refine ⟨row, ?_, fun _ => rfl, id⟩
  obtain ⟨bound, _⟩ := List.getElem?_eq_some_iff.mp found
  rw [List.getElem?_append_left bound, found]

end RowsKept

theorem ThreadMark.write_kept (mark : ThreadMark) (rows : List PublishedRow) (time : String) :
    RowsKept rows (mark.write rows time) ∧ (mark.write rows time).length = rows.length := by
  cases mark with
  | applied discussion user =>
      refine ⟨RowsKept.map rows ?_ ?_, List.length_map _⟩
      · intro row gate
        split
        · rfl
        · rfl
      · intro row handled
        split
        · rename_i unmarked
          simp only [Bool.and_eq_true, decide_eq_true_eq] at unmarked
          simp [PublishedRow.handled, unmarked.2] at handled ⊢
          exact Or.inr handled
        · exact handled
  | resolved discussion user =>
      refine ⟨RowsKept.map rows ?_ ?_, List.length_map _⟩
      · intro row gate
        split
        · rfl
        · rfl
      · intro row handled
        split
        · rename_i unmarked
          simp only [Bool.and_eq_true, decide_eq_true_eq] at unmarked
          simp [PublishedRow.handled, unmarked.2] at handled ⊢
          exact Or.inl handled
        · exact handled

theorem savePublishedSuggestion_kept
    (gate : InlineGate) (rows : List PublishedRow) (record : PublishedRecord) :
    RowsKept rows (savePublishedSuggestion gate rows record) ∧
      ((savePublishedSuggestion gate rows record).length = rows.length ∨
        (savePublishedSuggestion gate rows record).length = rows.length + 1) := by
  unfold savePublishedSuggestion
  split
  · refine ⟨RowsKept.map rows ?_ ?_, Or.inl (List.length_map _)⟩
    · intro row gate
      split
      · rfl
      · rfl
    · intro row handled
      split
      · exact handled
      · exact handled
  · exact ⟨RowsKept.append rows _, Or.inr List.length_append⟩

/-! ## The invariant -/

namespace GateWorld

/-- The row was inserted by a publication that is still to set the status. -/
def Announced (w : GateWorld) (i : Nat) : Prop :=
  ∃ process, i ∈ (w.processes process).inserted

/-- Every row of the merge request from `seen` on is handled, or still to be announced. -/
def HandledFrom (gate : InlineGate) (w : GateWorld) (seen : Nat) : Prop :=
  ∀ (i : Nat) (row : PublishedRow), seen ≤ i → w.rows[i]? = some row → row.ofMr gate = true →
    row.handled = true ∨ w.Announced i

/-- What holds between any two steps of a run. -/
structure Guarded (gate : InlineGate) (w : GateWorld) : Prop where
  closed : w.statuses w.head = some .success → w.HandledFrom gate 0
  decided : ∀ process seen, w.processes process = .deciding .success seen →
    seen ≤ w.rows.length ∧
      ∀ (i : Nat) (row : PublishedRow), i < seen → w.rows[i]? = some row →
        row.ofMr gate = true → row.handled = true
  counted : ∀ process, (w.processes process).inserted ≠ [] → 0 < (w.processes process).published

/-- The status write goes to the head commit and is accepted. -/
def Reached (w : GateWorld) (sha : Option String) (accepted : Bool) : Prop :=
  sha = some w.head ∧ accepted = true

/-- A recomputation sets `success` while the rows that its read missed are handled or still to be
announced, a publication comes with its `pending`, and no push brings back a `success`. -/
def KeepsClosed (gate : InlineGate) (w : GateWorld) : GateOp → Prop
  | .setStatus process sha accepted =>
    ∀ seen, w.processes process = .deciding .success seen → w.Reached sha accepted →
      w.HandledFrom gate seen
  | .applyPending process sha accepted =>
    ∀ published inserted, w.processes process = .publishing [] published inserted →
      inserted ≠ [] → w.Reached sha accepted ∨ w.statuses w.head ≠ some .success
  | .push sha => w.statuses sha ≠ some .success
  | _ => True

section Enter

variable {w : GateWorld} {process : Nat} {next : GateProcess}

@[simp]
theorem enter_rows : (w.enter process next).rows = w.rows := rfl

@[simp]
theorem enter_statuses : (w.enter process next).statuses = w.statuses := rfl

@[simp]
theorem enter_head : (w.enter process next).head = w.head := rfl

@[simp]
theorem enter_self : (w.enter process next).processes process = next := by
  simp [enter]

theorem enter_other {other : Nat} (distinct : other ≠ process) :
    (w.enter process next).processes other = w.processes other := by
  simp [enter, distinct]

theorem Announced.enter
    {i : Nat}
    (announced : w.Announced i)
    (kept : ∀ row ∈ (w.processes process).inserted, row ∈ next.inserted) :
    (w.enter process next).Announced i := by
  obtain ⟨other, member⟩ := announced
  refine ⟨other, ?_⟩
  by_cases same : other = process
  · subst other
    rw [enter_self]
    exact kept i member
  · rw [enter_other same]
    exact member

theorem forall_enter
    {holds : GateProcess → Prop}
    (here : holds next)
    (others : ∀ other, other ≠ process → holds (w.processes other)) :
    ∀ other, holds ((w.enter process next).processes other) := by
  intro other
  by_cases same : other = process
  · subst other
    rw [enter_self]
    exact here
  · rw [enter_other same]
    exact others other same

end Enter

section Set

variable {gate : InlineGate} {w : GateWorld} {state : GateState} {sha : Option String}
  {accepted : Bool}

theorem set_eq :
    ∃ statuses, w.set gate state sha accepted = { w with statuses := statuses } := by
  unfold set
  split
  · exact ⟨w.statuses, rfl⟩
  · split
    · split
      · exact ⟨_, rfl⟩
      · exact ⟨w.statuses, rfl⟩
    · exact ⟨w.statuses, rfl⟩

@[simp]
theorem set_rows : (w.set gate state sha accepted).rows = w.rows := by
  obtain ⟨statuses, same⟩ := @set_eq gate w state sha accepted
  rw [same]

@[simp]
theorem set_head : (w.set gate state sha accepted).head = w.head := by
  obtain ⟨statuses, same⟩ := @set_eq gate w state sha accepted
  rw [same]

@[simp]
theorem set_processes : (w.set gate state sha accepted).processes = w.processes := by
  obtain ⟨statuses, same⟩ := @set_eq gate w state sha accepted
  rw [same]

theorem set_success
    (success : (w.set gate state sha accepted).statuses w.head = some .success) :
    (w.Reached sha accepted ∧ state = .success) ∨ w.statuses w.head = some .success := by
  unfold set at success
  split at success
  · exact Or.inr success
  · split at success
    · rename_i sha
      split at success
      · rename_i taken
        by_cases here : w.head = sha
        · rw [here] at success
          simp only [Function.update_self] at success
          exact Or.inl ⟨⟨by rw [here], taken⟩, Option.some.inj success⟩
        · simp only [Function.update_of_ne here] at success
          exact Or.inr success
      · exact Or.inr success
    · exact Or.inr success

theorem set_reached
    (enabled : gate.isEnabled = true)
    (reached : w.Reached sha accepted) :
    (w.set gate state sha accepted).statuses w.head = some state := by
  obtain ⟨rfl, rfl⟩ := reached
  simp [set, enabled]

end Set

namespace Guarded

variable {gate : InlineGate} {w after : GateWorld}

/-- What `decided` says about one process. -/
def Knows (gate : InlineGate) (rows : List PublishedRow) (process : GateProcess) : Prop :=
  ∀ seen, process = .deciding .success seen →
    seen ≤ rows.length ∧
      ∀ (i : Nat) (row : PublishedRow), i < seen → rows[i]? = some row →
        row.ofMr gate = true → row.handled = true

theorem Knows.keep
    {before rows : List PublishedRow} {process : GateProcess}
    (knows : Knows gate before process)
    (kept : RowsKept before rows)
    (longer : before.length ≤ rows.length) :
    Knows gate rows process := by
  intro seen deciding
  obtain ⟨bound, handled⟩ := knows seen deciding
  refine ⟨bound.trans longer, ?_⟩
  intro i row below found belongs
  have old : before[i]? = some (before.get ⟨i, below.trans_le bound⟩) :=
    List.getElem?_eq_getElem _
  obtain ⟨next, same, mr, stays⟩ := kept i _ old
  obtain rfl := Option.some.inj (found.symm.trans same)
  exact stays (handled i _ below old ((mr gate).symm.trans belongs))

theorem of_step
    (guarded : w.Guarded gate)
    (kept : RowsKept w.rows after.rows)
    (status : after.statuses after.head = some .success → w.statuses w.head = some .success)
    (inserted : ∀ i, w.rows.length ≤ i → i < after.rows.length → after.Announced i)
    (announced : after.statuses after.head = some .success →
      ∀ i, w.Announced i → after.Announced i)
    (knows : ∀ process, Knows gate after.rows (after.processes process))
    (counted : ∀ process,
      (after.processes process).inserted ≠ [] → 0 < (after.processes process).published) :
    after.Guarded gate := by
  refine ⟨?_, fun process => knows process, counted⟩
  intro success i row _ found belongs
  by_cases old : i < w.rows.length
  · have earlier : w.rows[i]? = some (w.rows.get ⟨i, old⟩) := List.getElem?_eq_getElem _
    obtain ⟨next, same, mr, stays⟩ := kept i _ earlier
    obtain rfl := Option.some.inj (found.symm.trans same)
    rcases guarded.closed (status success) i _ (Nat.zero_le i) earlier
      ((mr gate).symm.trans belongs) with handled | open_
    · exact Or.inl (stays handled)
    · exact Or.inr (announced success i open_)
  · obtain ⟨bound, _⟩ := List.getElem?_eq_some_iff.mp found
    exact Or.inr (inserted i (Nat.le_of_not_lt old) bound)

theorem enter
    (guarded : w.Guarded gate)
    {process : Nat} {next : GateProcess}
    (kept : ∀ row ∈ (w.processes process).inserted, row ∈ next.inserted)
    (knows : Knows gate w.rows next)
    (counted : next.inserted ≠ [] → 0 < next.published) :
    (w.enter process next).Guarded gate := by
  refine guarded.of_step (RowsKept.refl _) id ?_ ?_ ?_ ?_
  · intro i old new
    exact absurd new (Nat.not_lt.mpr old)
  · intro _ i announced
    exact announced.enter kept
  · exact forall_enter knows fun other _ => guarded.decided other
  · exact @forall_enter w process next (fun p => p.inserted ≠ [] → 0 < p.published) counted
      fun other _ => guarded.counted other

theorem enterPlain
    (guarded : w.Guarded gate)
    {process : Nat} {next : GateProcess}
    (before : (w.processes process).inserted = [])
    (plain : next.inserted = [])
    (undecided : ∀ seen, next ≠ .deciding .success seen) :
    (w.enter process next).Guarded gate := by
  refine guarded.enter ?_ ?_ ?_
  · rw [before]
    intro row member
    cases member
  · intro seen decided
    exact absurd decided (undecided seen)
  · intro inserted
    exact absurd plain inserted

theorem mark
    (guarded : w.Guarded gate)
    (mark : ThreadMark) (time : String) :
    Guarded gate { w with rows := mark.write w.rows time } := by
  obtain ⟨kept, length⟩ := mark.write_kept w.rows time
  refine guarded.of_step kept id ?_ (fun _ _ => id) ?_ guarded.counted
  · intro i old new
    rw [show ({ w with rows := mark.write w.rows time } : GateWorld).rows.length =
      w.rows.length from length] at new
    exact absurd new (Nat.not_lt.mpr old)
  · intro process
    exact Knows.keep (guarded.decided process) kept length.ge

theorem saveItem
    (guarded : w.Guarded gate)
    {process : Nat} {item : PublishStatus × PublishedRecord}
    {rest : List (PublishStatus × PublishedRecord)} {published : Nat} {inserted : List Nat}
    (here : w.processes process = .publishing (item :: rest) published inserted)
    (accepted : Bool) :
    (w.saveItem gate process item rest published inserted accepted).Guarded gate := by
  have count : inserted ≠ [] → 0 < published := by
    have counted := guarded.counted process
    rwa [here] at counted
  have deciding : ∀ (rows : List PublishedRow) (n : Nat) (more : List Nat),
      Knows gate rows (.publishing rest n more) := by
    intro rows n more seen impossible
    cases impossible
  unfold GateWorld.saveItem
  split
  · refine guarded.enter ?_ (deciding _ _ _) count
    rw [here]
    exact fun _ => id
  · split
    · refine guarded.enter ?_ (deciding _ _ _) fun _ => Nat.succ_pos _
      rw [here]
      exact fun _ => id
    · obtain ⟨kept, length⟩ := savePublishedSuggestion_kept gate w.rows item.2
      dsimp only
      generalize savePublishedSuggestion gate w.rows item.2 = rows at kept length ⊢
      have longer : w.rows.length ≤ rows.length := by omega
      refine guarded.of_step kept id ?_ ?_ ?_ ?_
      · intro i old new
        simp only [enter_rows] at new
        refine ⟨process, ?_⟩
        rw [enter_self, if_pos (lt_of_le_of_lt old new)]
        have last : i = w.rows.length := by omega
        simp [GateProcess.inserted, last]
      · intro _ i announced
        have moved : ({ w with rows := rows } : GateWorld).Announced i := announced
        refine moved.enter ?_
        simp only [here, GateProcess.inserted]
        intro row member
        split
        · exact List.mem_append_left _ member
        · exact member
      · refine forall_enter (deciding _ _ _) fun other _ => ?_
        exact Knows.keep (guarded.decided other) kept longer
      · exact @forall_enter { w with rows := rows } process _
          (fun p => p.inserted ≠ [] → 0 < p.published) (fun _ => Nat.succ_pos _)
          fun other _ => guarded.counted other

theorem readRows
    (guarded : w.Guarded gate)
    {process : Nat}
    (idle : (w.processes process).inserted = [])
    (readable : Bool) :
    (w.readRows gate process readable).Guarded gate := by
  refine guarded.enter ?_ ?_ ?_
  · rw [idle]
    intro row member
    cases member
  · intro seen deciding
    injection deciding with state length
    subst seen
    cases readable with
    | false =>
        exact ⟨Nat.zero_le _, fun i row below => absurd below (Nat.not_lt_zero i)⟩
    | true =>
        refine ⟨le_rfl, ?_⟩
        intro i row _ found belongs
        have satisfied : allThreadsSatisfied gate w.rows true = true := by
          by_contra unsatisfied
          rw [if_neg unsatisfied] at state
          cases state
        refine List.all_eq_true.mp satisfied row ?_
        exact List.mem_filter.mpr ⟨List.mem_of_getElem? found, belongs⟩
  · intro inserted
    cases inserted rfl

theorem setAndLeave
    (guarded : w.Guarded gate)
    {process : Nat} {state : GateState} {sha : Option String} {accepted : Bool}
    (status : w.Reached sha accepted → state = .success → w.HandledFrom gate 0)
    (announced : (w.set gate state sha accepted).statuses w.head = some .success →
      (w.processes process).inserted = []) :
    Guarded gate ((w.set gate state sha accepted).enter process .idle) := by
  refine ⟨?_, ?_, ?_⟩
  · intro success i row bound found belongs
    simp only [enter_statuses, enter_head, enter_rows, set_head, set_rows] at success found
    have before : w.HandledFrom gate 0 := by
      rcases set_success success with ⟨reached, wrote⟩ | earlier
      · exact status reached wrote
      · exact guarded.closed earlier
    rcases before i row bound found belongs with handled | ⟨other, waiting⟩
    · exact Or.inl handled
    · right
      have moved : (w.set gate state sha accepted).Announced i := by
        refine ⟨other, ?_⟩
        rwa [set_processes]
      refine moved.enter ?_
      rw [set_processes, announced success]
      intro row member
      cases member
  · have knows : ∀ other, Knows gate w.rows
        (((w.set gate state sha accepted).enter process .idle).processes other) := by
      refine forall_enter ?_ fun other _ => ?_
      · intro seen impossible
        cases impossible
      · rw [set_processes]
        exact guarded.decided other
    simp only [enter_rows, set_rows]
    exact knows
  · refine @forall_enter _ process .idle (fun p => p.inserted ≠ [] → 0 < p.published) ?_
      fun other _ => ?_
    · intro inserted
      cases inserted rfl
    · rw [set_processes]
      exact guarded.counted other

theorem applyPending
    (guarded : w.Guarded gate)
    (enabled : gate.isEnabled = true)
    {process : Nat} {published : Nat} {inserted : List Nat}
    {sha : Option String} {accepted : Bool}
    (here : w.processes process = .publishing [] published inserted)
    (safe : inserted ≠ [] → w.Reached sha accepted ∨ w.statuses w.head ≠ some .success) :
    Guarded gate
      ((if 0 < published && gate.isEnabled then w.set gate .pending sha accepted else w).enter
        process .idle) := by
  have count : inserted ≠ [] → 0 < published := by
    have counted := guarded.counted process
    rwa [here] at counted
  by_cases some : 0 < published
  · rw [if_pos (by simp [some, enabled])]
    refine guarded.setAndLeave ?_ ?_
    · intro _ impossible
      cases impossible
    · intro success
      rw [here]
      by_contra nonempty
      rcases safe nonempty with reached | open_
      · cases (set_reached enabled reached).symm.trans success
      · rcases set_success success with ⟨_, impossible⟩ | earlier
        · cases impossible
        · exact open_ earlier
  · have none : inserted = [] := by
      by_contra nonempty
      exact some (count nonempty)
    rw [if_neg (by simp [some])]
    refine guarded.enterPlain ?_ rfl fun seen => by simp
    rw [here]
    exact none

theorem setStatus
    (guarded : w.Guarded gate)
    {process : Nat} {state : GateState} {seen : Nat} {sha : Option String} {accepted : Bool}
    (here : w.processes process = .deciding state seen)
    (safe : state = .success → w.Reached sha accepted → w.HandledFrom gate seen) :
    Guarded gate ((w.set gate state sha accepted).enter process .idle) := by
  refine guarded.setAndLeave ?_ fun _ => by rw [here]; rfl
  rintro reached rfl i row _ found belongs
  by_cases returned : i < seen
  · exact Or.inl ((guarded.decided process seen here).2 i row returned found belongs)
  · exact safe rfl reached i row (Nat.le_of_not_lt returned) found belongs

theorem step
    (guarded : w.Guarded gate)
    (enabled : gate.isEnabled = true)
    (op : GateOp)
    (safe : w.KeepsClosed gate op) :
    (w.step gate op).Guarded gate := by
  cases op with
  | publish process results =>
      dsimp only [GateWorld.step]
      split
      · rename_i idle
        refine guarded.enterPlain ?_ rfl fun seen => by simp
        rw [idle]
        rfl
      · exact guarded
  | save process accepted =>
      dsimp only [GateWorld.step]
      split
      · rename_i item rest published inserted here
        exact guarded.saveItem here accepted
      · exact guarded
  | applyPending process sha accepted =>
      dsimp only [GateWorld.step]
      split
      · rename_i published inserted here
        exact guarded.applyPending enabled here (safe published inserted here)
      · exact guarded
  | mark mark time accepted =>
      dsimp only [GateWorld.step]
      split
      · exact guarded.mark mark time
      · exact guarded
  | sync process readable discussions =>
      dsimp only [GateWorld.step]
      split
      · rename_i idle
        split
        · exact guarded
        · refine guarded.enterPlain ?_ rfl fun seen => by simp
          rw [idle]
          rfl
      · exact guarded
  | syncThread process time accepted =>
      dsimp only [GateWorld.step]
      split
      · rename_i mark rest here
        have marked : Guarded gate
            (if accepted then { w with rows := mark.write w.rows time } else w) := by
          split
          · exact guarded.mark mark time
          · exact guarded
        have same : (if accepted then { w with rows := mark.write w.rows time } else w).processes
            process = .syncing (mark :: rest) := by
          split
          · exact here
          · exact here
        refine marked.enterPlain ?_ rfl fun seen => by simp
        rw [same]
        rfl
      · exact guarded
  | read process readable =>
      dsimp only [GateWorld.step]
      split
      · rename_i here
        exact guarded.readRows (by rw [here]; rfl) readable
      · rename_i here
        exact guarded.readRows (by rw [here]; rfl) readable
      · exact guarded
  | setStatus process sha accepted =>
      dsimp only [GateWorld.step]
      split
      · rename_i state seen here
        refine guarded.setStatus here ?_
        rintro rfl reached
        exact safe seen here reached
      · exact guarded
  | push sha =>
      refine ⟨?_, guarded.decided, guarded.counted⟩
      intro success
      exact absurd success safe

end Guarded

theorem step_rows (gate : InlineGate) (w : GateWorld) (op : GateOp) :
    RowsKept w.rows (w.step gate op).rows := by
  cases op <;> dsimp only [GateWorld.step, saveItem]
  all_goals repeat' split
  all_goals first
    | exact RowsKept.refl _
    | exact (savePublishedSuggestion_kept gate w.rows _).1
    | exact (ThreadMark.write_kept _ w.rows _).1
    | simpa only [enter_rows, set_rows] using RowsKept.refl _

/-- No process is between two of its steps. -/
def Quiet (w : GateWorld) : Prop :=
  ∀ process, w.processes process = .idle

/-- `success` on the head only when every row of the merge request is handled. -/
def FailsClosed (gate : InlineGate) (w : GateWorld) : Prop :=
  w.statuses w.head = some .success → ∀ row ∈ w.rows, row.ofMr gate = true → row.handled = true

end GateWorld

theorem published_rows_are_kept (gate : InlineGate) (w : GateWorld) (ops : List GateOp) :
    RowsKept w.rows (ops.foldl (GateWorld.step gate) w).rows := by
  induction ops generalizing w with
  | nil => exact RowsKept.refl _
  | cons op rest ih => exact (w.step_rows gate op).trans (ih _)

/-- In every run whose steps keep the gate closed, it is closed over open suggestions whenever no
step is in progress. -/
theorem inline_gate_fails_closed
    {gate : InlineGate}
    (enabled : gate.isEnabled = true)
    {start final : GateWorld}
    (idle : start.Quiet)
    (unset : start.statuses start.head ≠ some .success)
    (run : Reaches (GateWorld.step gate) (GateWorld.KeepsClosed gate) start final)
    (quiet : final.Quiet) :
    final.FailsClosed gate := by
  have initial : start.Guarded gate := by
    refine ⟨fun success => absurd success unset, ?_, ?_⟩
    · intro process seen deciding
      rw [idle process] at deciding
      cases deciding
    · intro process inserted
      rw [idle process] at inserted
      cases inserted rfl
  have guarded : final.Guarded gate :=
    Reaches.invariant (GateWorld.Guarded gate)
      (fun w op guarded safe => guarded.step enabled op safe) run initial
  intro success row member belongs
  obtain ⟨i, found⟩ := List.mem_iff_getElem?.mp member
  rcases guarded.closed success i row (Nat.zero_le i) found belongs with handled | ⟨process, open_⟩
  · exact handled
  · rw [quiet process] at open_
    cases open_

namespace InlineGateSample

def gate : InlineGate where
  project := "group/project"
  mrIid := "7"
  gateEnabled := true
  allowlist := ["project"]

def start : GateWorld where
  rows := []
  statuses := fun _ => none
  head := "head"
  processes := fun _ => .idle

def record (discussion : String) : PublishedRecord where
  suggestionId := "SUG-001"
  discussionId := some discussion
  noteId := some "note"
  effectId := none

/-- One suggestion is published and the gate is locked. -/
def published (process : Nat) (discussion : String) : List GateOp :=
  [.publish process [(.published, record discussion)],
    .save process true,
    .applyPending process (some "head") true]

/-- The only suggestion is resolved, and a synchronisation opens the gate. -/
def resolved : List GateOp :=
  published 0 "first" ++
    [.sync 1 true [⟨"first", [⟨false, true, "author"⟩]⟩],
      .syncThread 1 "today" true,
      .read 1 true,
      .setStatus 1 (some "head") true]

/-- A recomputation whose read fails. -/
def unreadable : List GateOp :=
  published 0 "first" ++ [.read 1 false, .setStatus 1 (some "head") true]

/-- A suggestion that is published between the read and the write of a recomputation. -/
def overtaken : List GateOp :=
  published 0 "first" ++ [.mark (.resolved "first" "author") "today" true, .read 1 true] ++
    published 0 "second" ++ [.setStatus 1 (some "head") true]

/-- The world after some steps. -/
def after (ops : List GateOp) : GateWorld :=
  ops.foldl (GateWorld.step gate) start

theorem after_quiet
    (ops : List GateOp)
    (first : (after ops).processes 0 = .idle)
    (second : (after ops).processes 1 = .idle)
    (others : ∀ n, (after ops).processes (n + 2) = .idle) :
    (after ops).Quiet := by
  intro process
  match process with
  | 0 => exact first
  | 1 => exact second
  | n + 2 => exact others n

end InlineGateSample

open InlineGateSample in
theorem resolved_suggestion_opens_gate :
    (after resolved).statuses "head" = some .success ∧
      ∀ row ∈ (after resolved).rows, row.ofMr gate = true → row.handled = true := by
  have opened : (after resolved).statuses "head" = some .success := by
    decide +kernel
  refine ⟨opened, ?_⟩
  have run : Reaches (GateWorld.step gate) (GateWorld.KeepsClosed gate) start (after resolved) := by
    refine Reaches.of_follows ⟨trivial, trivial, ?_, trivial, trivial, trivial, ?_, trivial⟩
    · exact fun _ _ _ _ => Or.inl ⟨rfl, rfl⟩
    · -- The read has returned the only row.
      intro seen here _ i row bound found
      have one : seen = 1 := by
        have verdict : (after (resolved.take 6)).processes 1 = .deciding .success 1 := by
          decide +kernel
        injection here.symm.trans verdict
      have rows : (after (resolved.take 6)).rows.length = 1 := by
        decide +kernel
      obtain ⟨inside, _⟩ := List.getElem?_eq_some_iff.mp found
      exact absurd (one ▸ bound) (Nat.not_le.mpr (lt_of_lt_of_eq inside rows))
  exact inline_gate_fails_closed (by decide +kernel) (fun _ => rfl) (by decide) run
    (after_quiet resolved (by decide +kernel) (by decide +kernel) fun n => rfl) opened

open InlineGateSample in
/--
A read that fails, and a publication between the read and the write of a
recomputation, each leave an open suggestion behind an open gate.
-/
theorem open_suggestion_behind_open_gate :
    ((after unreadable).Quiet ∧ ¬(after unreadable).FailsClosed gate) ∧
      (after overtaken).Quiet ∧ ¬(after overtaken).FailsClosed gate := by
  refine ⟨⟨?_, ?_⟩, ?_, ?_⟩
  · exact after_quiet _ (by decide +kernel) (by decide +kernel) fun n => rfl
  · intro closed
    have handled := closed (by decide +kernel) (record "first" |>.row gate) (by decide +kernel)
    exact absurd (handled (by decide +kernel)) (by decide +kernel)
  · exact after_quiet _ (by decide +kernel) (by decide +kernel) fun n => rfl
  · intro closed
    have handled := closed (by decide +kernel) (record "second" |>.row gate) (by decide +kernel)
    exact absurd (handled (by decide +kernel)) (by decide +kernel)

end MrAgent
