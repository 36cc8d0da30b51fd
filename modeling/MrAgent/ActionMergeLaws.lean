import MrAgent.KeyedMerge
import MrAgent.RepairDetails

namespace MrAgent

open KeyedMerge CappedList

/-!
# Laws of merging repair actions

A merge reads the action and its update like one stored document. On actions
whose texts are read back the same the second time it is a merge by key; on an
identity that reading changes it is not, and neither is it repeatable on a new
action that reading changes.
-/

namespace DetailedAction

/-- The identity under which updates find the action. -/
def key (action : DetailedAction) : Option String :=
  nonemptyText action.identity

end DetailedAction

theorem identity_of_key
    {action : DetailedAction}
    {name : String}
    (own : action.key = some name) :
    action.identity = name ∧ name ≠ "" :=
  nonemptyText_eq_some.mp own

namespace RepairTextEnv

variable (env : RepairTextEnv)

/-- What one update makes of an action. -/
def mergeAction (previous update : DetailedAction) : DetailedAction :=
  env.readAction (previous.overlay update)

/-- The text that an update puts in place of a scalar. -/
def carried (limit : Nat) (text : String) : Option String :=
  if text ∈ DetailedAction.placeholders then none else some (env.sanitizeRepairText text limit)

/-- The value of an enumeration that an update puts in place of another. -/
def carriedValue (values : List String) (fallback text : String) : Option String :=
  if text ∈ DetailedAction.placeholders then none else some (oneOf values fallback text)

/-- The file changes that an update puts in place of others. -/
def carriedChanges (changes : List RepairFileChange) : Option (List RepairFileChange) :=
  if changes = [] then none else some ((changes.filterMap env.readFileChange).take 30)

/-- An update of an action that was read, field by field. -/
def join (previous update : DetailedAction) : DetailedAction where
  actionId := (env.carried 120 update.actionId).getD previous.actionId
  rootCauseGroupId := (env.carried 120 update.rootCauseGroupId).getD previous.rootCauseGroupId
  categories := absorb (env.keptText 32) 4 previous.categories update.categories
  jobNames := absorb (env.keptText 120) 20 previous.jobNames update.jobNames
  rootCause := (env.carried 500 update.rootCause).getD previous.rootCause
  evidence := (env.carried 500 update.evidence).getD previous.evidence
  confidence :=
    (carriedValue confidenceValues "unknown" update.confidence).getD previous.confidence
  measures := absorb (env.keptText 400) 12 previous.measures update.measures
  changedFiles := absorb env.safePath 80 previous.changedFiles update.changedFiles
  solutionSummary := (env.carried 500 update.solutionSummary).getD previous.solutionSummary
  rationale := (env.carried 500 update.rationale).getD previous.rationale
  fileChanges := (env.carriedChanges update.fileChanges).getD previous.fileChanges
  commitSha := (env.carried 64 update.commitSha).getD previous.commitSha
  validationPipelineId := (orNone update.validationPipelineId).getD previous.validationPipelineId
  validationStatus := (env.carried 32 update.validationStatus).getD previous.validationStatus
  status := (carriedValue actionStatusValues "planned" update.status).getD previous.status
  failureReason := (env.carried 400 update.failureReason).getD previous.failureReason
  startedAt := (env.carried 64 update.startedAt).getD previous.startedAt
  completedAt := (env.carried 64 update.completedAt).getD previous.completedAt

/-- The categories that reading keeps are categories. -/
def KnownCategories (action : DetailedAction) : Prop :=
  ∀ category ∈ env.uniqueText 32 4 action.categories, category ∈ categoryValues

variable {env} {action previous update : DetailedAction}

theorem read_updated (limit : Nat) (old new : String) :
    env.sanitizeRepairText (DetailedAction.updated old new) limit =
      (env.carried limit new).getD (env.sanitizeRepairText old limit) := by
  unfold DetailedAction.updated carried
  split <;> rfl

theorem oneOf_updated (values : List String) (fallback old new : String) :
    oneOf values fallback (DetailedAction.updated old new) =
      (carriedValue values fallback new).getD (oneOf values fallback old) := by
  unfold DetailedAction.updated carriedValue
  split <;> rfl

theorem uniqueText_append
    {limit count : Nat}
    (positive : 0 < count)
    (values more : List String) :
    env.uniqueText limit count (values ++ more) =
      absorb (env.keptText limit) count (env.uniqueText limit count values) more :=
  gather_append_eq_absorb positive values more

theorem categories_join
    (known : env.KnownCategories previous)
    (knownUpdate : env.KnownCategories update) :
    ∀ category ∈ absorb (env.keptText 32) 4 (env.uniqueText 32 4 previous.categories)
      update.categories, category ∈ categoryValues := by
  intro category member
  rcases mem_absorb member with old | new
  · exact known category old
  · exact knownUpdate category new

theorem readAction_categories (known : env.KnownCategories action) :
    (env.readAction action).categories = env.uniqueText 32 4 action.categories := by
  rw [readAction, List.filter_eq_self]
  intro category member
  exact decide_eq_true (known category member)

theorem readAction_changedFiles (action : DetailedAction) :
    (env.readAction action).changedFiles = gather env.safePath 80 [] action.changedFiles :=
  (gather_eq_take_eraseDups (by decide) action.changedFiles).symm

theorem mergeAction_eq_join
    (known : env.KnownCategories previous)
    (knownUpdate : env.KnownCategories update) :
    env.mergeAction previous update = env.join (env.readAction previous) update := by
  apply DetailedAction.ext
  case categories =>
    have joined : env.KnownCategories (previous.overlay update) := by
      intro category member
      rw [DetailedAction.overlay, uniqueText_append (by decide)] at member
      exact categories_join known knownUpdate category member
    rw [mergeAction, readAction_categories joined, join, readAction_categories known]
    exact uniqueText_append (by decide) previous.categories update.categories
  case changedFiles =>
    rw [mergeAction, join, readAction_changedFiles, readAction_changedFiles]
    exact gather_append_eq_absorb (by decide) previous.changedFiles update.changedFiles
  case jobNames => exact uniqueText_append (by decide) previous.jobNames update.jobNames
  case measures => exact uniqueText_append (by decide) previous.measures update.measures
  case confidence => exact oneOf_updated _ _ _ _
  case status => exact oneOf_updated _ _ _ _
  case validationPipelineId =>
    simp only [mergeAction, readAction, DetailedAction.overlay, join, orNone]
    split <;> rfl
  case fileChanges =>
    simp only [mergeAction, readAction, DetailedAction.overlay, join, carriedChanges]
    split <;> rfl
  all_goals exact read_updated _ _ _

/-! ## Merging twice -/

theorem replayed_overwrite
    {α : Type}
    (field : DetailedAction → α)
    (pick : DetailedAction → Option α)
    (separate : ∀ entry update, field (env.join entry update) = (pick update).getD (field entry))
    (entry : DetailedAction)
    (updates : List DetailedAction) :
    field (updates.foldl env.join (updates.foldl env.join entry)) =
      field (updates.foldl env.join entry) :=
  field_replayed _ separate (replayable_overwrite pick) entry updates

theorem replayed_absorb
    {clean : String → Option String}
    {count : Nat}
    (field : DetailedAction → List String)
    (separate : ∀ entry update,
      field (env.join entry update) = absorb clean count (field entry) (field update))
    (entry : DetailedAction)
    (updates : List DetailedAction) :
    field (updates.foldl env.join (updates.foldl env.join entry)) =
      field (updates.foldl env.join entry) := by
  refine field_replayed (fun kept update => absorb clean count kept (field update)) separate
    (replayable_of_settled (fun update kept => CappedList.Settled clean count (field update) kept)
      (fun kept update => settled_absorb kept (field update))
      (fun kept update other settled => settled.of_prefix (prefix_absorb kept (field other)))
      fun kept update settled => absorb_of_settled settled) entry updates

/-- Every field of an action is either replaced by an update or a capped list. -/
theorem replayable_join (env : RepairTextEnv) : Replayable env.join := by
  intro entry updates
  apply DetailedAction.ext
  case categories => exact replayed_absorb (·.categories) (fun _ _ => rfl) entry updates
  case jobNames => exact replayed_absorb (·.jobNames) (fun _ _ => rfl) entry updates
  case measures => exact replayed_absorb (·.measures) (fun _ _ => rfl) entry updates
  case changedFiles => exact replayed_absorb (·.changedFiles) (fun _ _ => rfl) entry updates
  case fileChanges =>
    exact replayed_overwrite (·.fileChanges) (env.carriedChanges ·.fileChanges) (fun _ _ => rfl)
      entry updates
  case validationPipelineId =>
    exact replayed_overwrite (·.validationPipelineId) (orNone ·.validationPipelineId)
      (fun _ _ => rfl) entry updates
  case confidence =>
    exact replayed_overwrite (·.confidence) (carriedValue _ _ ·.confidence) (fun _ _ => rfl)
      entry updates
  case status =>
    exact replayed_overwrite (·.status) (carriedValue _ _ ·.status) (fun _ _ => rfl) entry updates
  case actionId =>
    exact replayed_overwrite (·.actionId) (env.carried 120 ·.actionId) (fun _ _ => rfl)
      entry updates
  case rootCauseGroupId =>
    exact replayed_overwrite (·.rootCauseGroupId) (env.carried 120 ·.rootCauseGroupId)
      (fun _ _ => rfl) entry updates
  case rootCause =>
    exact replayed_overwrite (·.rootCause) (env.carried 500 ·.rootCause) (fun _ _ => rfl)
      entry updates
  case evidence =>
    exact replayed_overwrite (·.evidence) (env.carried 500 ·.evidence) (fun _ _ => rfl)
      entry updates
  case solutionSummary =>
    exact replayed_overwrite (·.solutionSummary) (env.carried 500 ·.solutionSummary)
      (fun _ _ => rfl) entry updates
  case rationale =>
    exact replayed_overwrite (·.rationale) (env.carried 500 ·.rationale) (fun _ _ => rfl)
      entry updates
  case commitSha =>
    exact replayed_overwrite (·.commitSha) (env.carried 64 ·.commitSha) (fun _ _ => rfl)
      entry updates
  case validationStatus =>
    exact replayed_overwrite (·.validationStatus) (env.carried 32 ·.validationStatus)
      (fun _ _ => rfl) entry updates
  case failureReason =>
    exact replayed_overwrite (·.failureReason) (env.carried 400 ·.failureReason) (fun _ _ => rfl)
      entry updates
  case startedAt =>
    exact replayed_overwrite (·.startedAt) (env.carried 64 ·.startedAt) (fun _ _ => rfl)
      entry updates
  case completedAt =>
    exact replayed_overwrite (·.completedAt) (env.carried 64 ·.completedAt) (fun _ _ => rfl)
      entry updates

/-- The texts, enumerations and lists of an action that is read from a document. -/
structure Reads (env : RepairTextEnv) (value action : DetailedAction) : Prop where
  actionId : env.sanitizeRepairText value.actionId 120 = action.actionId
  rootCauseGroupId : env.sanitizeRepairText value.rootCauseGroupId 120 = action.rootCauseGroupId
  rootCause : env.sanitizeRepairText value.rootCause 500 = action.rootCause
  evidence : env.sanitizeRepairText value.evidence 500 = action.evidence
  solutionSummary : env.sanitizeRepairText value.solutionSummary 500 = action.solutionSummary
  rationale : env.sanitizeRepairText value.rationale 500 = action.rationale
  commitSha : env.sanitizeRepairText value.commitSha 64 = action.commitSha
  validationStatus : env.sanitizeRepairText value.validationStatus 32 = action.validationStatus
  failureReason : env.sanitizeRepairText value.failureReason 400 = action.failureReason
  startedAt : env.sanitizeRepairText value.startedAt 64 = action.startedAt
  completedAt : env.sanitizeRepairText value.completedAt 64 = action.completedAt
  confidence : oneOf confidenceValues "unknown" value.confidence = action.confidence
  status : oneOf actionStatusValues "planned" value.status = action.status
  categories :
    (env.uniqueText 32 4 value.categories).filter (· ∈ categoryValues) = action.categories
  jobNames : env.uniqueText 120 20 value.jobNames = action.jobNames
  measures : env.uniqueText 400 12 value.measures = action.measures
  changedFiles : gather env.safePath 80 [] value.changedFiles = action.changedFiles
  fileChanges :
    (value.fileChanges.filterMap env.readFileChange).take 30 = action.fileChanges
  validationPipelineId : value.validationPipelineId = action.validationPipelineId

theorem reads_readAction (value : DetailedAction) : Reads env value (env.readAction value) := by
  constructor
  case changedFiles => exact (readAction_changedFiles value).symm
  all_goals rw [readAction]

theorem reads_iff {value : DetailedAction} :
    Reads env value action ↔ env.readAction value = action := by
  constructor
  · intro reads
    have read := @reads_readAction env value
    apply DetailedAction.ext
    case actionId => exact read.actionId.symm.trans reads.actionId
    case rootCauseGroupId => exact read.rootCauseGroupId.symm.trans reads.rootCauseGroupId
    case rootCause => exact read.rootCause.symm.trans reads.rootCause
    case evidence => exact read.evidence.symm.trans reads.evidence
    case solutionSummary => exact read.solutionSummary.symm.trans reads.solutionSummary
    case rationale => exact read.rationale.symm.trans reads.rationale
    case commitSha => exact read.commitSha.symm.trans reads.commitSha
    case validationStatus => exact read.validationStatus.symm.trans reads.validationStatus
    case failureReason => exact read.failureReason.symm.trans reads.failureReason
    case startedAt => exact read.startedAt.symm.trans reads.startedAt
    case completedAt => exact read.completedAt.symm.trans reads.completedAt
    case confidence => exact read.confidence.symm.trans reads.confidence
    case status => exact read.status.symm.trans reads.status
    case categories => exact read.categories.symm.trans reads.categories
    case jobNames => exact read.jobNames.symm.trans reads.jobNames
    case measures => exact read.measures.symm.trans reads.measures
    case changedFiles => exact read.changedFiles.symm.trans reads.changedFiles
    case fileChanges => exact read.fileChanges.symm.trans reads.fileChanges
    case validationPipelineId => exact read.validationPipelineId.symm.trans reads.validationPipelineId
  · rintro rfl
    exact reads_readAction value

/-! ## Actions that reading leaves alone -/

/--
Reading the action twice is reading it once, and reading keeps its identity.
A text that is cut behind a space loses the space the second time.
-/
structure Steady (env : RepairTextEnv) (action : DetailedAction) : Prop where
  again : env.readAction (env.readAction action) = env.readAction action
  actionId : env.sanitizeRepairText action.actionId 120 = action.actionId
  group : action.actionId = "" →
    env.sanitizeRepairText action.rootCauseGroupId 120 = action.rootCauseGroupId
  categories : env.KnownCategories action

theorem read_carried
    (limit : Nat)
    {old : String}
    (new : String)
    (stored : env.sanitizeRepairText old limit = old)
    (again : env.sanitizeRepairText (env.sanitizeRepairText new limit) limit =
      env.sanitizeRepairText new limit) :
    env.sanitizeRepairText ((env.carried limit new).getD old) limit =
      (env.carried limit new).getD old := by
  unfold carried
  split
  · exact stored
  · exact again

theorem oneOf_carried
    {values : List String}
    {fallback old : String}
    (listed : fallback ∈ values)
    (stored : oneOf values fallback old = old)
    (new : String) :
    oneOf values fallback ((carriedValue values fallback new).getD old) =
      (carriedValue values fallback new).getD old := by
  unfold carriedValue
  split
  · exact stored
  · rw [Option.getD_some, oneOf]
    split
    · rfl
    · rename_i absent
      refine absurd ?_ absent
      unfold oneOf
      split
      · assumption
      · exact listed

theorem uniqueText_stored (stored : env.readAction action = action) :
    env.uniqueText 32 4 action.categories = action.categories :=
  gather_eq_self_of_filter (reads_iff.mpr stored).categories

theorem knownCategories_of_stored (stored : env.readAction action = action) :
    env.KnownCategories action := by
  intro category member
  rw [uniqueText_stored stored] at member
  have listed := (reads_iff.mpr stored).categories
  rw [uniqueText_stored stored] at listed
  rw [← listed] at member
  simpa using (List.mem_filter.mp member).2

theorem read_join (stored : env.readAction previous = previous) (steady : Steady env update) :
    env.readAction (env.join previous update) = env.join previous update := by
  have old := reads_iff.mpr stored
  have read := @reads_readAction env update
  have again := reads_iff.mpr steady.again
  have twice : ∀ {limit : Nat} {text : String} {field : String},
      env.sanitizeRepairText text limit = field → env.sanitizeRepairText field limit = field →
      env.sanitizeRepairText (env.sanitizeRepairText text limit) limit =
        env.sanitizeRepairText text limit := by
    rintro limit text field rfl same
    exact same
  apply reads_iff.mp
  constructor
  case actionId =>
    exact read_carried 120 update.actionId old.actionId (twice read.actionId again.actionId)
  case rootCauseGroupId =>
    exact read_carried 120 update.rootCauseGroupId old.rootCauseGroupId (twice read.rootCauseGroupId again.rootCauseGroupId)
  case rootCause =>
    exact read_carried 500 update.rootCause old.rootCause (twice read.rootCause again.rootCause)
  case evidence =>
    exact read_carried 500 update.evidence old.evidence (twice read.evidence again.evidence)
  case solutionSummary =>
    exact read_carried 500 update.solutionSummary old.solutionSummary (twice read.solutionSummary again.solutionSummary)
  case rationale =>
    exact read_carried 500 update.rationale old.rationale (twice read.rationale again.rationale)
  case commitSha =>
    exact read_carried 64 update.commitSha old.commitSha (twice read.commitSha again.commitSha)
  case validationStatus =>
    exact read_carried 32 update.validationStatus old.validationStatus (twice read.validationStatus again.validationStatus)
  case failureReason =>
    exact read_carried 400 update.failureReason old.failureReason (twice read.failureReason again.failureReason)
  case startedAt =>
    exact read_carried 64 update.startedAt old.startedAt (twice read.startedAt again.startedAt)
  case completedAt =>
    exact read_carried 64 update.completedAt old.completedAt (twice read.completedAt again.completedAt)
  case confidence => exact oneOf_carried (by decide) old.confidence update.confidence
  case status => exact oneOf_carried (by decide) old.status update.status
  case validationPipelineId => rfl
  case jobNames =>
    have settles := again.jobNames
    rw [← read.jobNames] at settles
    exact gather_absorb (by decide) old.jobNames settles
  case measures =>
    have settles := again.measures
    rw [← read.measures] at settles
    exact gather_absorb (by decide) old.measures settles
  case changedFiles =>
    have settles := again.changedFiles
    rw [← read.changedFiles] at settles
    exact gather_absorb (by decide) old.changedFiles settles
  case fileChanges =>
    have settles := again.fileChanges
    rw [← read.fileChanges] at settles
    rw [join, carriedChanges]
    split
    · exact old.fileChanges
    · exact settles
  case categories =>
    have settles := again.categories
    rw [← read.categories] at settles
    have whole : (env.uniqueText 32 4 update.categories).filter (· ∈ categoryValues) =
        env.uniqueText 32 4 update.categories := by
      rw [List.filter_eq_self]
      exact fun category member => decide_eq_true (steady.categories category member)
    rw [whole] at settles
    have joined : env.uniqueText 32 4 (env.join previous update).categories =
        (env.join previous update).categories :=
      gather_absorb (by decide) (gather_eq_self_of_filter old.categories)
        (gather_eq_self_of_filter settles)
    rw [joined, List.filter_eq_self]
    intro category member
    rcases mem_absorb member with early | late
    · have known := knownCategories_of_stored stored category
      rw [uniqueText_stored stored] at known
      exact decide_eq_true (known early)
    · exact decide_eq_true (steady.categories category late)

theorem mergeAction_stored (steady : Steady env previous) (steadyUpdate : Steady env update) :
    env.readAction (env.mergeAction previous update) = env.mergeAction previous update := by
  rw [mergeAction_eq_join steady.categories steadyUpdate.categories]
  exact read_join steady.again steadyUpdate

theorem Steady.of_stored (stored : env.readAction action = action) : Steady env action where
  again := by
    rw [stored]
    exact stored
  actionId := (reads_iff.mpr stored).actionId
  group := fun _ => (reads_iff.mpr stored).rootCauseGroupId
  categories := knownCategories_of_stored stored

variable {updates : List DetailedAction}

theorem foldl_mergeAction
    (steady : Steady env action)
    (steadyUpdates : ∀ update ∈ updates, Steady env update)
    (some : updates ≠ []) :
    updates.foldl env.mergeAction action = updates.foldl env.join (env.readAction action) := by
  induction updates generalizing action with
  | nil =>
      exact absurd rfl some
  | cons update rest ih =>
      have first := steadyUpdates update List.mem_cons_self
      have merged := mergeAction_eq_join steady.categories first.categories
      have stored := mergeAction_stored steady first
      rw [List.foldl_cons, List.foldl_cons, ← merged]
      cases rest with
      | nil =>
          simp only [List.foldl_nil]
      | cons next later =>
          rw [ih (Steady.of_stored stored)
            (fun other member => steadyUpdates other (List.mem_cons_of_mem update member)) nofun,
            stored]

theorem replays
    (steady : Steady env action)
    (steadyUpdates : ∀ update ∈ updates, Steady env update) :
    updates.foldl env.mergeAction (updates.foldl env.mergeAction action) =
      updates.foldl env.mergeAction action := by
  by_cases none : updates = []
  · simp only [none, List.foldl_nil]
  · have stored : env.readAction (updates.foldl env.join (env.readAction action)) =
        updates.foldl env.join (env.readAction action) := by
      have kept : ∀ (entry : DetailedAction) (updates : List DetailedAction),
          (∀ update ∈ updates, Steady env update) → env.readAction entry = entry →
          env.readAction (updates.foldl env.join entry) = updates.foldl env.join entry := by
        intro entry updates
        induction updates generalizing entry with
        | nil =>
            exact fun _ stored => stored
        | cons update rest ih =>
            intro steadyUpdates stored
            exact ih _
              (fun other member => steadyUpdates other (List.mem_cons_of_mem update member))
              (read_join stored (steadyUpdates update List.mem_cons_self))
      exact kept _ updates steadyUpdates steady.again
    rw [foldl_mergeAction steady steadyUpdates none,
      foldl_mergeAction (Steady.of_stored stored) steadyUpdates none, stored]
    exact replayable_join env _ updates

theorem mergeAction_self (stored : env.readAction action = action) :
    env.mergeAction action action = action := by
  have known := knownCategories_of_stored stored
  have old := reads_iff.mpr stored
  rw [mergeAction_eq_join known known, stored]
  have taken : ∀ (limit : Nat) {text : String}, env.sanitizeRepairText text limit = text →
      (env.carried limit text).getD text = text := by
    intro limit text same
    unfold carried
    split
    · rfl
    · exact same
  have takenValue : ∀ {values : List String} {fallback text : String},
      oneOf values fallback text = text →
      (carriedValue values fallback text).getD text = text := by
    intro values fallback text same
    unfold carriedValue
    split
    · rfl
    · exact same
  apply DetailedAction.ext
  case categories => exact absorb_of_settled (settled_self (by decide) (uniqueText_stored stored))
  case jobNames => exact absorb_of_settled (settled_self (by decide) old.jobNames)
  case measures => exact absorb_of_settled (settled_self (by decide) old.measures)
  case changedFiles => exact absorb_of_settled (settled_self (by decide) old.changedFiles)
  case confidence => exact takenValue old.confidence
  case status => exact takenValue old.status
  case validationPipelineId =>
    rw [join, orNone]
    split <;> rfl
  case fileChanges =>
    rw [join, carriedChanges]
    split
    · rfl
    · exact old.fileChanges
  case actionId => exact taken 120 old.actionId
  case rootCauseGroupId => exact taken 120 old.rootCauseGroupId
  case rootCause => exact taken 500 old.rootCause
  case evidence => exact taken 500 old.evidence
  case solutionSummary => exact taken 500 old.solutionSummary
  case rationale => exact taken 500 old.rationale
  case commitSha => exact taken 64 old.commitSha
  case validationStatus => exact taken 32 old.validationStatus
  case failureReason => exact taken 400 old.failureReason
  case startedAt => exact taken 64 old.startedAt
  case completedAt => exact taken 64 old.completedAt

end RepairTextEnv

open RepairTextEnv

/-! ## Identities -/

/-- An update with a placeholder as its id does not name its group otherwise. -/
def SameGroup (action update : DetailedAction) : Prop :=
  action.actionId = "" → update.actionId ≠ "" → update.actionId ∈ DetailedAction.placeholders →
    update.rootCauseGroupId ∈ DetailedAction.placeholders

section

variable {env : RepairTextEnv} {action update : DetailedAction} {name : String}

theorem carried_eq (limit : Nat) {text : String} (named : text ∉ DetailedAction.placeholders) :
    env.carried limit text = some (env.sanitizeRepairText text limit) :=
  if_neg named

theorem carried_placeholder
    (limit : Nat)
    {text : String}
    (placeholder : text ∈ DetailedAction.placeholders) :
    env.carried limit text = none :=
  if_pos placeholder

theorem key_mergeAction
    (steady : Steady env action)
    (steadyUpdate : Steady env update)
    (own : action.key = some name)
    (ownUpdate : update.key = some name)
    (group : SameGroup action update) :
    (env.mergeAction action update).key = some name ∧
      ((env.mergeAction action update).actionId = "" → action.actionId = "") := by
  have read := @reads_readAction env action
  have old : (env.readAction action).actionId = action.actionId :=
    read.actionId.symm.trans steady.actionId
  obtain ⟨whole, filled⟩ := identity_of_key own
  obtain ⟨wholeUpdate, _⟩ := identity_of_key ownUpdate
  rw [mergeAction_eq_join steady.categories steadyUpdate.categories]
  have merged : (env.join (env.readAction action) update).actionId =
      (env.carried 120 update.actionId).getD action.actionId := by
    rw [join, old]
  have mergedGroup : (env.join (env.readAction action) update).rootCauseGroupId =
      (env.carried 120 update.rootCauseGroupId).getD (env.readAction action).rootCauseGroupId := by
    rw [join]
  rw [DetailedAction.key, nonemptyText_eq_some, DetailedAction.identity, merged, mergedGroup]
  by_cases placeholder : update.actionId ∈ DetailedAction.placeholders
  · rw [carried_placeholder 120 placeholder, Option.getD_none]
    refine ⟨⟨?_, filled⟩, id⟩
    by_cases anonymous : action.actionId = ""
    · have oldGroup : (env.readAction action).rootCauseGroupId = name := by
        rw [← read.rootCauseGroupId, steady.group anonymous, ← whole, DetailedAction.identity,
          textOr, if_pos anonymous]
      rw [textOr, if_pos anonymous, oldGroup]
      by_cases blank : update.actionId = ""
      · -- The update names the group.
        have group : update.rootCauseGroupId = name := by
          rw [← wholeUpdate, DetailedAction.identity, textOr, if_pos blank]
        by_cases skipped : update.rootCauseGroupId ∈ DetailedAction.placeholders
        · rw [carried_placeholder 120 skipped, Option.getD_none]
        · rw [carried_eq 120 skipped, Option.getD_some, steadyUpdate.group blank, group]
      · rw [carried_placeholder 120 (group anonymous blank placeholder), Option.getD_none]
    · rw [textOr, if_neg anonymous, ← whole, DetailedAction.identity, textOr, if_neg anonymous]
  · have blank : update.actionId ≠ "" := by
      intro equal
      exact placeholder (equal ▸ by decide)
    have id : update.actionId = name := by
      rw [← wholeUpdate, DetailedAction.identity, textOr, if_neg blank]
    rw [carried_eq 120 placeholder, Option.getD_some, steadyUpdate.actionId, id]
    refine ⟨⟨by rw [textOr, if_neg filled], filled⟩, ?_⟩
    intro equal
    exact absurd equal filled

end

/-- What the existing actions and the updates of one merge have to be. -/
structure Mergeable
    (env : RepairTextEnv)
    (current updates : List DetailedAction) : Prop where
  distinct : (current.filterMap DetailedAction.key).Nodup
  /-- Reading keeps the identity of an update and of what it names, and settles their texts. -/
  steady : ∀ action ∈ current ++ updates, ∀ update ∈ updates,
    action.key = update.key → update.key ≠ none → Steady env action
  /-- A new action is stored as it will be read. -/
  stored : ∀ before update after, updates = before ++ update :: after → update.key ≠ none →
    (∀ action ∈ current ++ before, action.key ≠ update.key) → env.readAction update = update
  /-- No update has the key of an action without an identity. -/
  positions : ∀ action ∈ current ++ updates, action.key = none →
    ∀ update ∈ updates, ∀ index, update.identity ≠ positionKey index
  group : ∀ action ∈ current ++ updates, ∀ update ∈ updates,
    action.key = update.key → update.key ≠ none → SameGroup action update

section

variable {env : RepairTextEnv} {current updates : List DetailedAction}

/-- What the condition says of one action. -/
def MergeEntry (env : RepairTextEnv) (updates : List DetailedAction) (action : DetailedAction) :
    Prop :=
  ∀ update ∈ updates, action.key = update.key → update.key ≠ none →
    Steady env action ∧ SameGroup action update

theorem Mergeable.entries (mergeable : Mergeable env current updates) :
    ∀ action ∈ current ++ updates, MergeEntry env updates action :=
  fun action member update inside same named =>
    ⟨mergeable.steady action member update inside same named,
      mergeable.group action member update inside same named⟩

theorem merge_laws (mergeable : Mergeable env current updates) :
    Laws DetailedAction.key env.mergeAction (MergeEntry env updates) (· ∈ updates) where
  enters := fun update member => mergeable.entries update (List.mem_append_right _ member)
  keeps := by
    intro action update name entry member own ownUpdate
    have named : update.key ≠ none := by
      rw [ownUpdate]
      exact Option.some_ne_none name
    obtain ⟨steady, group⟩ := entry update member (own.trans ownUpdate.symm) named
    obtain ⟨steadyUpdate, _⟩ :=
      mergeable.entries update (List.mem_append_right _ member) update member rfl named
    obtain ⟨key, anonymous⟩ := key_mergeAction steady steadyUpdate own ownUpdate group
    refine ⟨?_, key⟩
    intro other inside same filled
    refine ⟨Steady.of_stored (mergeAction_stored steady steadyUpdate), ?_⟩
    intro blank
    exact (entry other inside (own.trans (key.symm.trans same)) filled).2 (anonymous blank)

/-! ## The loop -/

/-- The places that the loop knows of the identities of updates. -/
def Placed (updates : List DetailedAction) (s : ActionMerge) : Prop :=
  ∀ update ∈ updates, ∀ name, update.key = some name →
    match s.positions name with
    | some index => ∃ action, s.output[index]? = some action ∧ action.key = some name
    | none => ¬Present DetailedAction.key s.output name

variable {name : String} {action : DetailedAction}

theorem textOr_positionKey
    {index : Nat}
    (clear : action.key = none → name ≠ positionKey index)
    (filled : name ≠ "") :
    textOr action.identity (positionKey index) = name ↔ action.key = some name := by
  rw [DetailedAction.key, nonemptyText_eq_some]
  rw [DetailedAction.key, nonemptyText_eq_none] at clear
  unfold textOr
  by_cases blank : action.identity = ""
  · rw [if_pos blank]
    constructor
    · intro equal
      exact absurd equal.symm (clear blank)
    · rintro ⟨equal, _⟩
      exact absurd (equal.symm.trans blank) filled
  · rw [if_neg blank]
    exact ⟨fun equal => ⟨equal, filled⟩, And.left⟩

theorem placed_name_append
    {positions : String → Option Nat}
    {output : List DetailedAction}
    (placed : match positions name with
      | some index => ∃ action, output[index]? = some action ∧ action.key = some name
      | none => ¬Present DetailedAction.key output name)
    (clear : action.key = none → name ≠ positionKey output.length)
    (filled : name ≠ "") :
    match ActionMerge.place positions
        (textOr action.identity (positionKey output.length)) output.length name with
    | some index => ∃ other, (output ++ [action])[index]? = some other ∧ other.key = some name
    | none => ¬Present DetailedAction.key (output ++ [action]) name := by
  by_cases own : action.key = some name
  · have key := (textOr_positionKey clear filled).mpr own
    simp only [ActionMerge.place, key, Function.update_self]
    exact ⟨action, by simp, own⟩
  · have key : ¬name = textOr action.identity (positionKey output.length) :=
      fun equal => own ((textOr_positionKey clear filled).mp equal.symm)
    simp only [ActionMerge.place, Function.update_of_ne key]
    cases found : positions name with
    | some index =>
        simp only [found] at placed
        obtain ⟨other, inside, ownOther⟩ := placed
        refine ⟨other, ?_, ownOther⟩
        rw [List.getElem?_append_left (List.getElem?_eq_some_iff.mp inside).1]
        exact inside
    | none =>
        simp only [found] at placed
        rintro ⟨other, member, ownOther⟩
        rcases List.mem_append.mp member with old | last
        · exact placed ⟨other, old, ownOther⟩
        · rw [List.mem_singleton.mp last] at ownOther
          exact own ownOther

theorem positionsOf_append (current : List DetailedAction) (action : DetailedAction) :
    ActionMerge.positionsOf (current ++ [action]) =
      ActionMerge.place (ActionMerge.positionsOf current)
        (textOr action.identity (positionKey current.length)) current.length := by
  simp [ActionMerge.positionsOf, List.zipIdx_append]

theorem placed_start
    (clear : ∀ action ∈ current, action.key = none →
      ∀ update ∈ updates, ∀ index, update.identity ≠ positionKey index) :
    Placed updates { output := current, positions := ActionMerge.positionsOf current } := by
  intro update member name own
  obtain ⟨whole, filled⟩ := identity_of_key own
  induction current using List.reverseRecOn with
  | nil =>
      simp [ActionMerge.positionsOf, Present]
  | append_singleton before action ih =>
      have placed := ih fun other inside =>
        clear other (List.mem_append_left _ inside)
      have apart : action.key = none → name ≠ positionKey before.length := by
        intro blank
        rw [← whole]
        exact clear action (by simp) blank update member before.length
      rw [positionsOf_append]
      exact placed_name_append placed apart filled

theorem step_refines
    {s : ActionMerge}
    {raw : RawUpdate}
    (mergeable : Mergeable env current updates)
    (member : raw.read env ∈ updates)
    (good : ∀ action ∈ s.output, MergeEntry env updates action)
    (distinct : (s.output.filterMap DetailedAction.key).Nodup)
    (placed : Placed updates s) :
    (s.step env raw).output = step DetailedAction.key env.mergeAction s.output (raw.read env) ∧
      Placed updates (s.step env raw) := by
  have appended : ∀ s' : ActionMerge, s'.output = s.output ++ [raw.read env] →
      s'.positions = ActionMerge.place s.positions
        (textOr (raw.read env).identity (positionKey s.output.length)) s.output.length →
      Placed updates s' := by
    intro s' output positions other inside name own
    obtain ⟨whole, filled⟩ := identity_of_key own
    rw [output, positions]
    apply placed_name_append (placed other inside name own) _ filled
    intro blank
    rw [← whole]
    exact mergeable.positions (raw.read env) (List.mem_append_right _ member) blank other inside _
  unfold ActionMerge.step step
  cases own : (raw.read env).key with
  | none =>
      have blank := nonemptyText_eq_none.mp own
      simp only [if_pos blank, true_and]
      exact appended _ rfl rfl
  | some name =>
      obtain ⟨whole, filled⟩ := identity_of_key own
      have place := placed _ member name own
      simp only [whole, if_neg filled]
      cases found : s.positions name with
      | none =>
          simp only [found] at place
          simp only [if_neg place, true_and]
          apply appended _ rfl
          rw [whole]
      | some index =>
          simp only [found] at place
          obtain ⟨previous, inside, ownPrevious⟩ := place
          have present : Present DetailedAction.key s.output name :=
            ⟨previous, List.mem_of_getElem? inside, ownPrevious⟩
          simp only [inside, if_pos present]
          have merged := map_mergeInto_eq_set (raw.read env) env.mergeAction distinct
            inside ownPrevious
          refine ⟨merged.symm, ?_⟩
          have keys : (s.output.set index (env.mergeAction previous (raw.read env))).map
              DetailedAction.key = s.output.map DetailedAction.key := by
            rw [← merged, List.map_map]
            apply List.map_congr_left
            intro action old
            exact key_mergeInto (merge_laws mergeable) (good action old) member own
          intro other inUpdates otherName ownOther
          have before := placed other inUpdates otherName ownOther
          cases foundOther : s.positions otherName with
          | some otherIndex =>
              simp only [foundOther] at before ⊢
              obtain ⟨action, there, ownAction⟩ := before
              have mapped : (s.output.map DetailedAction.key)[otherIndex]? =
                  some (some otherName) := by
                rw [List.getElem?_map, there, Option.map_some, ownAction]
              rw [← keys, List.getElem?_map] at mapped
              exact Option.map_eq_some_iff.mp mapped
          | none =>
              simp only [foundOther] at before ⊢
              rintro ⟨action, there, ownAction⟩
              have listed : some otherName ∈ s.output.map DetailedAction.key := by
                rw [← keys]
                exact List.mem_map.mpr ⟨action, there, ownAction⟩
              obtain ⟨old, thereOld, ownOld⟩ := List.mem_map.mp listed
              exact before ⟨old, thereOld, ownOld⟩

theorem mergeRepairActions_eq_mergeAll
    {start : List DetailedAction}
    (raws : List RawUpdate)
    (mergeable : Mergeable env current (raws.map (·.read env)))
    (good : ∀ action ∈ start, MergeEntry env (raws.map (·.read env)) action)
    (distinct : (start.filterMap DetailedAction.key).Nodup)
    (clear : ∀ action ∈ start, action.key = none →
      ∀ update ∈ raws.map (·.read env), ∀ index, update.identity ≠ positionKey index) :
    mergeRepairActions env start raws =
      mergeAll DetailedAction.key env.mergeAction start (raws.map (·.read env)) := by
  have general : ∀ (rest : List RawUpdate) (s : ActionMerge),
      (∀ raw ∈ rest, raw.read env ∈ raws.map (·.read env)) →
      (∀ action ∈ s.output, MergeEntry env (raws.map (·.read env)) action) →
      (s.output.filterMap DetailedAction.key).Nodup →
      Placed (raws.map (·.read env)) s →
      (rest.foldl (ActionMerge.step env) s).output =
        mergeAll DetailedAction.key env.mergeAction s.output (rest.map (·.read env)) := by
    intro rest
    induction rest with
    | nil =>
        intro s _ _ _ _
        rfl
    | cons raw rest ih =>
        intro s among good distinct placed
        have member := among raw List.mem_cons_self
        obtain ⟨output, placedNext⟩ := step_refines mergeable member good distinct placed
        have laws := merge_laws mergeable
        have one : ∀ update ∈ [raw.read env], update ∈ raws.map (·.read env) := by
          intro update only
          rw [List.mem_singleton.mp only]
          exact member
        have goodNext := step_good laws good member
        have distinctNext : ((mergeAll DetailedAction.key env.mergeAction s.output
            [raw.read env]).filterMap DetailedAction.key).Nodup :=
          keys_distinct laws good one distinct
        have next := ih (s.step env raw)
          (fun other inside => among other (List.mem_cons_of_mem raw inside))
          (by rw [output]; exact goodNext) (by rw [output]; exact distinctNext) placedNext
        rw [List.foldl_cons, next, output]
        rfl
  exact general raws _ (fun raw member => List.mem_map_of_mem member) good distinct
    (placed_start clear)

/-- What a merge of mergeable actions does. -/
theorem merge_keeps_order_and_identities
    (env : RepairTextEnv)
    (current : List DetailedAction)
    (raws : List RawUpdate)
    (mergeable : Mergeable env current (raws.map (·.read env))) :
    current.map (·.identity) <+: (mergeRepairActions env current raws).map (·.identity) ∧
      current.length ≤ (mergeRepairActions env current raws).length ∧
      ((mergeRepairActions env current raws).filterMap DetailedAction.key).Nodup ∧
      ((∀ raw ∈ raws, (raw.read env).identity ≠ "") →
        mergeRepairActions env (mergeRepairActions env current raws) raws =
          mergeRepairActions env current raws) := by
  have laws := merge_laws mergeable
  have good : ∀ action ∈ current, MergeEntry env (raws.map (·.read env)) action :=
    fun action member => mergeable.entries action (List.mem_append_left _ member)
  have clear : ∀ action ∈ current, action.key = none →
      ∀ update ∈ raws.map (·.read env), ∀ index, update.identity ≠ positionKey index :=
    fun action member => mergeable.positions action (List.mem_append_left _ member)
  have whole := mergeRepairActions_eq_mergeAll raws mergeable good mergeable.distinct clear
  have fine : ∀ update ∈ raws.map (·.read env), update ∈ raws.map (·.read env) :=
    fun update member => member
  have keys := keys_kept laws good fine
  rw [← whole] at keys
  have identities : current.map (·.identity) <+:
      (mergeRepairActions env current raws).map (·.identity) := by
    have named : ∀ action : DetailedAction, (action.key.getD "") = action.identity := by
      intro action
      unfold DetailedAction.key nonemptyText
      split
      · rename_i blank
        exact blank.symm
      · rfl
    have mapped := keys.map (·.getD "")
    simpa [List.map_map, Function.comp_def, named] using mapped
  have distinct := keys_distinct laws good fine mergeable.distinct
  rw [← whole] at distinct
  refine ⟨identities, by simpa using identities.length_le, distinct, ?_⟩
  intro identified
  have named : ∀ update ∈ raws.map (·.read env), update.key ≠ none := by
    intro update member
    obtain ⟨raw, inside, rfl⟩ := List.mem_map.mp member
    rw [DetailedAction.key, ne_eq, nonemptyText_eq_none]
    exact identified raw inside
  have goodMerged := mergeAll_good laws good fine
  rw [← whole] at goodMerged
  have clearMerged : ∀ action ∈ mergeRepairActions env current raws, action.key = none →
      ∀ update ∈ raws.map (·.read env), ∀ index, update.identity ≠ positionKey index := by
    intro action member blank
    rw [whole] at member
    rcases mem_of_mergeAll_unkeyed laws good fine member blank with old | new
    · exact clear action old blank
    · exact absurd blank (named action new)
  rw [mergeRepairActions_eq_mergeAll raws mergeable goodMerged distinct clearMerged, whole]
  apply mergeAll_idempotent laws good fine named
  · intro action name entry own
    by_cases none : ofKey DetailedAction.key (raws.map (·.read env)) name = []
    · simp only [none, List.foldl_nil]
    · obtain ⟨update, listed⟩ := List.exists_mem_of_ne_nil _ none
      obtain ⟨member, ownUpdate⟩ := List.mem_filter.mp listed
      have same : action.key = update.key := by
        rw [own]
        exact (of_decide_eq_true ownUpdate).symm
      apply replays (entry update member same (named update member)).1
      intro other inside
      obtain ⟨memberOther, _⟩ := List.mem_filter.mp inside
      exact (mergeable.entries other (List.mem_append_right _ memberOther) other memberOther rfl
        (named other memberOther)).1
  · intro name first rest absent start
    apply mergeAction_self
    obtain ⟨before, after, split, others, ownFirst, _⟩ := List.filter_eq_cons_iff.mp start
    have own : first.key = some name := of_decide_eq_true ownFirst
    refine mergeable.stored before first after split (by rw [own]; exact Option.some_ne_none name) ?_
    intro action member same
    rw [own] at same
    rcases List.mem_append.mp member with old | early
    · exact absent ⟨action, old, same⟩
    · exact others action early (decide_eq_true same)

end

section

variable {env : RepairTextEnv} {action : DetailedAction} {raw : RawUpdate}

theorem merge_into_none : mergeRepairActions env [] [raw] = [raw.read env] := by
  simp [mergeRepairActions, ActionMerge.step, ActionMerge.positionsOf]

theorem merge_into_own
    (own : (raw.read env).identity = action.identity)
    (filled : action.identity ≠ "") :
    mergeRepairActions env [action] [raw] = [env.mergeAction action (raw.read env)] := by
  simp [mergeRepairActions, ActionMerge.step, ActionMerge.positionsOf, ActionMerge.place, own,
    filled, textOr, mergeAction]

theorem merge_into_other
    (different : (raw.read env).identity ≠ action.identity)
    (filled : action.identity ≠ "") :
    mergeRepairActions env [action] [raw] = [action, raw.read env] := by
  simp [mergeRepairActions, ActionMerge.step, ActionMerge.positionsOf, ActionMerge.place,
    different, filled, textOr, Function.update_of_ne]

end

namespace ActionSample

/-- Texts without secrets. -/
def plain : RepairTextEnv where
  redactValues := id
  redactSecrets := id

/-- What a worker knows first of a root cause. -/
def editing : DetailedAction where
  actionId := "root-1"
  rootCause := "missing dependency"
  changedFiles := ["CMakeLists.txt"]
  status := "editing"

/-- What it knows at the end. -/
def committed : DetailedAction where
  actionId := "root-1"
  measures := ["drop it"]
  changedFiles := ["package.xml"]
  commitSha := "f883827"
  status := "committed"

theorem stored : ∀ action ∈ [editing, committed], plain.readAction action = action := by
  decide

theorem mergeable : Mergeable plain [editing] [committed] where
  distinct := by decide
  steady := fun action member _ _ _ _ => Steady.of_stored (stored action member)
  stored := by
    intro before update after split _ _
    have member : update ∈ [committed] := by
      rw [split]
      simp
    exact stored update (List.mem_cons_of_mem _ member)
  positions := by
    intro action member blank
    have named : ∀ action ∈ [editing, committed], action.key ≠ none := by
      decide
    exact absurd blank (named action member)
  group := by
    intro action member _ _ _ _ blank
    have named : ∀ action ∈ [editing, committed], action.actionId ≠ "" := by
      decide
    exact absurd blank (named action member)

/-- An identifier of 119 letters with something behind it. -/
def longId (tail : List Char) : String :=
  String.ofList (List.replicate 119 'a' ++ tail)

/-- An action of which only the identifier is known. -/
def named (tail : List Char) : DetailedAction where
  actionId := longId tail

theorem sanitize_ofList (text : List Char) (limit : Nat) :
    plain.sanitizeRepairText (String.ofList text) limit =
      String.ofList
        (([' '].intercalate (words (text.filter (· ≠ Char.ofNat 0)))).take limit) := by
  simp [RepairTextEnv.sanitizeRepairText, RepairTextEnv.sanitizeFailureText, boundedText, plain]

theorem read_named
    {tail cut : List Char}
    (id : plain.sanitizeRepairText (longId tail) 120 = longId cut) :
    plain.readAction (named tail) = named cut := by
  have empty : plain.readAction {} = {} := by
    decide
  have same : plain.readAction (named tail) =
      { plain.readAction {} with actionId := plain.sanitizeRepairText (longId tail) 120 } := rfl
  rw [same, empty, id]
  rfl

theorem read_cut : plain.readAction (named [' ', 'b']) = named [' '] := by
  apply read_named
  rw [longId, sanitize_ofList]
  exact congrArg String.ofList (by decide)

theorem read_stripped : plain.readAction (named [' ']) = named [] := by
  apply read_named
  rw [longId, sanitize_ofList]
  exact congrArg String.ofList (by decide)

/-- The report of a worker. -/
def report : RawUpdate :=
  .document (named [' ', 'b'])

theorem read_report : report.read plain = named [' '] :=
  read_cut

theorem identity_named (tail : List Char) : (named tail).identity = longId tail := by
  unfold DetailedAction.identity textOr
  split
  · rename_i blank
    exact blank.symm
  · rfl

theorem longId_ne (tail : List Char) : longId tail ≠ "" := by
  rw [longId, ← String.ofList_nil, ne_eq, String.ofList_inj]
  simp

theorem longId_inj {first second : List Char} : longId first = longId second ↔ first = second := by
  rw [longId, longId, String.ofList_inj, List.append_cancel_left_eq]

theorem overlay_self (action : DetailedAction) (lists : action.categories = [] ∧
    action.jobNames = [] ∧ action.measures = [] ∧ action.changedFiles = [] ∧
    action.fileChanges = []) : action.overlay action = action := by
  obtain ⟨categories, jobs, measures, files, changes⟩ := lists
  apply DetailedAction.ext <;>
    simp [DetailedAction.overlay, DetailedAction.updated, categories, jobs, measures, files,
      changes]

theorem merge_once : mergeRepairActions plain [] [report] = [named [' ']] := by
  rw [merge_into_none, read_report]

theorem merge_twice : mergeRepairActions plain [named [' ']] [report] = [named []] := by
  have itself : (named [' ']).overlay (named [' ']) = named [' '] :=
    overlay_self _ ⟨rfl, rfl, rfl, rfl, rfl⟩
  rw [merge_into_own (by rw [read_report]) (by rw [identity_named]; exact longId_ne _),
    read_report, mergeAction, itself, read_stripped]

theorem merge_thrice :
    mergeRepairActions plain [named []] [report] = [named [], named [' ']] := by
  have apart : (report.read plain).identity ≠ (named []).identity := by
    rw [read_report, identity_named, identity_named, ne_eq, longId_inj]
    exact List.cons_ne_nil _ _
  rw [merge_into_other apart (by rw [identity_named]; exact longId_ne _), read_report]

end ActionSample

open ActionSample in
theorem report_completes_action :
    let merged := mergeRepairActions plain [editing] [.action committed]
    ["root-1"] <+: merged.map (·.identity) ∧
      (merged.filterMap DetailedAction.key).Nodup ∧
      mergeRepairActions plain merged [.action committed] = merged := by
  intro merged
  obtain ⟨kept, _, distinct, again⟩ :=
    merge_keeps_order_and_identities plain [editing] [.action committed] mergeable
  exact ⟨kept, distinct, again (by decide)⟩

open ActionSample in
/--
An identifier that is cut behind a space is another one when the report comes
again, and the third report makes a second action.
-/
theorem cut_identity_merged_apart :
    ∃ once twice, mergeRepairActions plain [] [report] = once ∧
      mergeRepairActions plain once [report] = twice ∧
      mergeRepairActions plain twice [report] = [named [], named [' ']] ∧
      ¬once.map (·.identity) <+: twice.map (·.identity) ∧ twice ≠ once := by
  refine ⟨_, _, merge_once, merge_twice, merge_thrice, ?_, ?_⟩
  · simp [identity_named, longId_inj]
  · simp [named, longId_inj]

end MrAgent
