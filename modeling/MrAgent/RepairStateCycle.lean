import MrAgent.RepairStateStore

namespace MrAgent

open CappedList

/-!
# Storing and loading the repair state

The state that is loaded again is the stored one exactly when one more pass of
the cleaning functions changes no text of its explanations and actions, and no
number of it is a NaN. A text that is cut behind a blank loses the blank.
-/

/-! ## Reading what was written -/

namespace Json

variable {Record : Type}

@[simp]
theorem orElse_int (number : Int) : (int number : Json Record).orElse (int 0) = int number := by
  by_cases zero : number = 0 <;> simp [Json.orElse, truthy, zero]

@[simp]
theorem orElse_str (text : String) : (str text : Json Record).orElse (str "") = str text := by
  by_cases empty : text = "" <;> simp [Json.orElse, truthy, empty]

@[simp]
theorem orElse_arr (items : List (Json Record)) : (arr items).orElse (arr []) = arr items := by
  cases items <;> simp [Json.orElse, truthy]

@[simp]
theorem records_ofRecords (records : List Record) : (ofRecords records).records = some records := by
  have kept : (records.map (obj · true)).filterMap record? = records := by
    induction records with
    | nil => rfl
    | cons record rest ih => rw [List.map_cons, List.filterMap_cons, record?, ih]
  rw [ofRecords, Json.records, orElse_arr]
  exact congrArg some kept

theorem member_phase (phase : PipelineRepairPhase) :
    member PipelineRepairPhase.all (·.value) .pending (str phase.value) = some phase := by
  cases phase <;> rfl

theorem member_coveragePhase (phase : CoveragePhase) :
    member CoveragePhase.all (·.value) .notStarted (str phase.value) = some phase := by
  cases phase <;> rfl

end Json

theorem readFields_eq_some
    {Field α : Type}
    {all : List Field}
    {complete : ∀ field, field ∈ all}
    {read : Field → Option α}
    {values : Field → α} :
    readFields complete read = some values ↔ ∀ field, read field = some (values field) := by
  unfold readFields
  split
  · rename_i known
    rw [Option.some.injEq, funext_iff]
    refine forall_congr' fun field => ?_
    rw [Option.eq_some_iff_get_eq]
    exact ⟨fun same => ⟨known field (complete field), same⟩, fun ⟨_, same⟩ => same⟩
  · rename_i unknown
    refine iff_of_false nofun fun read => unknown fun field _ => ?_
    rw [read field]
    rfl


namespace RepairStateEnv

variable {Evidence : Type} (env : RepairStateEnv Evidence)

/-- What one more pass of the cleaning functions makes of a state. -/
def reread (state : RepairState Evidence) : RepairState Evidence :=
  { state with
    text := fun field => field.cut (state.text field)
    number := fun field => field.bounded (state.number field)
    sourceFailureExplanations := state.sourceFailureExplanations.map env.readExplanation
    failureExplanations := state.failureExplanations.map env.readExplanation
    repairActions := state.repairActions.map env.readAction }

theorem fromJson_toJson (state : RepairState Evidence) :
    env.fromJson (some state.toJson) = some (env.reread state) := by
  have number : readFields StateNumber.mem_all (fun field =>
      env.int ((state.toJson.number field).orElse (.int 0))) = some state.number :=
    readFields_eq_some.mpr fun field => by
      simp [RepairState.toJson, env.int_number]
  have texts : readFields StateTexts.mem_all (fun field => (state.toJson.texts field).items) =
      some fun field => (state.texts field).map .str :=
    readFields_eq_some.mpr fun field => by
      simp [RepairState.toJson, Json.items]
  have coverage : readFields StateCoverage.mem_all (fun field =>
      env.readCoverage (state.toJson.coverage field)) = some state.coverage :=
    readFields_eq_some.mpr fun field => by
      cases same : state.coverage field <;>
        simp [RepairState.toJson, same, Json.ofFloat, readCoverage, env.float_number]
  rw [fromJson, number, texts, coverage]
  simp [RepairState.toJson, Json.member_phase, Json.member_coveragePhase, reread, env.str_text,
    Function.comp_def, Json.truthy]

end RepairStateEnv

/-! ## What is read -/

/-- The texts of an explanation that only `sanitize_failure_text` cleans, with their limits. -/
def FailureExplanation.texts (record : FailureExplanation) : List (String × Nat) :=
  [(record.confirmedReason, 300), (record.possibleReason, 300), (record.suggestedAction, 200),
    (record.observedAt, 64)]

def RepairDiffHunk.texts (hunk : RepairDiffHunk) : List (String × Nat) :=
  (hunk.header, 200) :: hunk.lines.map (·.content, 500)

def RepairFileChange.texts (change : RepairFileChange) : List (String × Nat) :=
  (change.summary, 400) :: change.hunks.flatMap (·.texts)

/-- The texts of an action that `sanitize_repair_text` cleans, with their limits. -/
def DetailedAction.texts (action : DetailedAction) : List (String × Nat) :=
  [(action.actionId, 120), (action.rootCauseGroupId, 120), (action.rootCause, 500),
    (action.evidence, 500), (action.solutionSummary, 500), (action.rationale, 500),
    (action.commitSha, 64), (action.validationStatus, 32), (action.failureReason, 400),
    (action.startedAt, 64), (action.completedAt, 64)] ++
  action.categories.map (·, 32) ++ action.jobNames.map (·, 120) ++ action.measures.map (·, 400) ++
  action.fileChanges.flatMap (·.texts)

def DetailedAction.paths (action : DetailedAction) : List String :=
  action.changedFiles ++ action.fileChanges.map (·.path)

namespace RepairStateEnv

variable {Evidence : Type} (env : RepairStateEnv Evidence)

/-- The cleaning functions leave the texts of an explanation alone. -/
structure SettledExplanation (record : FailureExplanation) : Prop where
  jobName : textOr (env.sanitizeFailureText record.jobName 120) "unknown" = record.jobName
  jobUrl : env.safeJobUrl record.jobUrl = record.jobUrl
  texts : ∀ entry ∈ record.texts, env.sanitizeFailureText entry.1 entry.2 = entry.1

/-- The cleaning functions leave the texts and paths of an action alone. -/
structure SettledAction (action : DetailedAction) : Prop where
  texts : ∀ entry ∈ action.texts, env.sanitizeRepairText entry.1 entry.2 = entry.1
  paths : ∀ path ∈ action.paths, env.safePath path = some path

theorem oneOf_oneOf {values : List String} {fallback : String} (listed : fallback ∈ values)
    (text : String) : oneOf values fallback (oneOf values fallback text) =
      oneOf values fallback text := by
  unfold oneOf
  split <;> simp_all

variable {env}

theorem readExplanation_eq_iff {record raw : FailureExplanation}
    (read : env.readExplanation raw = record) :
    env.readExplanation record = record ↔ env.SettledExplanation record := by
  have confidence : oneOf confidenceValues "unknown" record.confidence = record.confidence := by
    have listed : oneOf confidenceValues "unknown" raw.confidence = record.confidence :=
      congrArg (·.confidence) read
    rw [← listed]
    exact oneOf_oneOf (by simp [confidenceValues]) raw.confidence
  constructor
  · intro same
    have jobName := congrArg FailureExplanation.jobName same
    have jobUrl := congrArg FailureExplanation.jobUrl same
    have confirmed := congrArg FailureExplanation.confirmedReason same
    have possible := congrArg FailureExplanation.possibleReason same
    have suggested := congrArg FailureExplanation.suggestedAction same
    have observed := congrArg FailureExplanation.observedAt same
    simp only [readExplanation] at jobName jobUrl confirmed possible suggested observed
    refine ⟨jobName, jobUrl, ?_⟩
    simp only [FailureExplanation.texts, List.forall_mem_cons]
    exact ⟨confirmed, possible, suggested, observed, nofun⟩
  · rintro ⟨jobName, jobUrl, texts⟩
    simp only [FailureExplanation.texts, List.forall_mem_cons] at texts
    obtain ⟨confirmed, possible, suggested, observed, -⟩ := texts
    rw [readExplanation, jobName, jobUrl, confirmed, possible, suggested, observed, confidence]

theorem filterMap_eq_self_iff {α : Type} {f : α → Option α} {items : List α} :
    items.filterMap f = items ↔ ∀ item ∈ items, f item = some item := by
  induction items with
  | nil => simp
  | cons item rest ih =>
    rw [List.forall_mem_cons, ← ih]
    cases found : f item with
    | none =>
      rw [List.filterMap_cons_none found]
      refine iff_of_false (fun same => ?_) nofun
      have short := List.length_filterMap_le f rest
      rw [same, List.length_cons] at short
      omega
    | some other =>
      rw [List.filterMap_cons_some found]
      simp

theorem take_filterMap_eq_self_iff
    {α : Type}
    {f : α → Option α}
    {items : List α}
    {count : Nat}
    (short : items.length ≤ count) :
    (items.filterMap f).take count = items ↔ ∀ item ∈ items, f item = some item := by
  rw [← filterMap_eq_self_iff, List.take_of_length_le ((List.length_filterMap_le f items).trans short)]

theorem map_eq_self_iff {α : Type} {f : α → α} {items : List α} :
    items.map f = items ↔ ∀ item ∈ items, f item = item := by
  conv_lhs => rhs; rw [← List.map_id items]
  exact List.map_inj_left

theorem readHunk_eq_iff {hunk : RepairDiffHunk} (short : hunk.lines.length ≤ 400) :
    env.readHunk hunk = hunk ↔
      ∀ entry ∈ hunk.texts, env.sanitizeRepairText entry.1 entry.2 = entry.1 := by
  have lines : (hunk.lines.map fun line =>
        { line with content := env.sanitizeRepairText line.content 500 }) = hunk.lines ↔
      ∀ line ∈ hunk.lines, env.sanitizeRepairText line.content 500 = line.content := by
    rw [map_eq_self_iff]
    exact forall₂_congr fun line _ =>
      ⟨fun same => congrArg (·.content) same, fun same => by rw [same]⟩
  rw [RepairDiffHunk.texts, List.forall_mem_cons, List.forall_mem_map, ← lines]
  constructor
  · intro same
    refine ⟨congrArg (·.header) same, ?_⟩
    have kept := congrArg (·.lines) same
    rwa [RepairTextEnv.readHunk, List.take_of_length_le short] at kept
  · rintro ⟨header, kept⟩
    rw [RepairTextEnv.readHunk, List.take_of_length_le short, header, kept]

theorem readFileChange_eq_iff
    {change raw : RepairFileChange}
    (read : env.readFileChange raw = some change) :
    env.readFileChange change = some change ↔
      env.safePath change.path = some change.path ∧
        ∀ entry ∈ change.texts, env.sanitizeRepairText entry.1 entry.2 = entry.1 := by
  obtain ⟨path, -, made⟩ := Option.map_eq_some_iff.mp read
  have listed : oneOf fileChangeTypes "modified" change.changeType = change.changeType := by
    rw [← made]
    exact oneOf_oneOf (by simp [fileChangeTypes]) raw.changeType
  have short : change.hunks.length ≤ 20 := by
    rw [← made, List.length_map]
    exact List.length_take_le 20 raw.hunks
  have hunks : change.hunks.map env.readHunk = change.hunks ↔
      ∀ entry ∈ change.hunks.flatMap (·.texts),
        env.sanitizeRepairText entry.1 entry.2 = entry.1 := by
    rw [map_eq_self_iff, List.forall_mem_flatMap]
    refine forall₂_congr fun hunk member => readHunk_eq_iff ?_
    rw [← made] at member
    obtain ⟨rawHunk, -, same⟩ := List.mem_map.mp member
    rw [← same, RepairTextEnv.readHunk, List.length_map]
    exact List.length_take_le 400 rawHunk.lines
  rw [RepairFileChange.texts, List.forall_mem_cons, ← hunks]
  constructor
  · intro again
    obtain ⟨other, found, same⟩ := Option.map_eq_some_iff.mp again
    have path := congrArg RepairFileChange.path same
    have summary := congrArg RepairFileChange.summary same
    have kept := congrArg RepairFileChange.hunks same
    simp only at path summary kept
    rw [List.take_of_length_le short] at kept
    exact ⟨path ▸ found, summary, kept⟩
  · rintro ⟨found, summary, kept⟩
    rw [RepairTextEnv.readFileChange, found, Option.map_some, listed, summary,
      List.take_of_length_le short, kept]

theorem uniqueText_eq_iff
    {limit count : Nat}
    {raw values : List String}
    (positive : 0 < count)
    (read : values.Sublist (env.uniqueText limit count raw)) :
    env.uniqueText limit count values = values ↔
      ∀ value ∈ values, env.sanitizeRepairText value limit = value := by
  have short : (env.uniqueText limit count raw).length ≤ count := length_gather_le positive raw
  have distinct : (env.uniqueText limit count raw).Nodup := nodup_gather List.nodup_nil raw
  have filled : ∀ value ∈ values, value ≠ "" := by
    intro value member
    have kept := read.subset member
    rw [RepairTextEnv.uniqueText, gather_eq_take_eraseDups positive] at kept
    obtain ⟨text, -, same⟩ :=
      List.mem_filterMap.mp (List.mem_eraseDups.mp (List.mem_of_mem_take kept))
    exact (nonemptyText_eq_some.mp same).2
  rw [RepairTextEnv.uniqueText, gather_eq_self_iff positive]
  constructor
  · rintro ⟨kept, -⟩ value member
    exact (nonemptyText_eq_some.mp (kept value member)).1
  · intro settled
    exact ⟨fun value member =>
      nonemptyText_eq_some.mpr ⟨settled value member, filled value member⟩, distinct.sublist read, read.length_le.trans short⟩

theorem readAction_eq_iff
    {action raw : DetailedAction}
    (read : env.readAction raw = action) :
    env.readAction action = action ↔ env.SettledAction action := by
  have first := RepairTextEnv.reads_iff.mpr read
  have categories := @uniqueText_eq_iff _ env 32 4 raw.categories action.categories (by decide) (by
    rw [← first.categories]
    exact List.filter_sublist)
  have jobNames := @uniqueText_eq_iff _ env 120 20 raw.jobNames action.jobNames (by decide) (by
    rw [first.jobNames])
  have measures := @uniqueText_eq_iff _ env 400 12 raw.measures action.measures (by decide) (by
    rw [first.measures])
  have changedFiles : gather env.safePath 80 [] action.changedFiles = action.changedFiles ↔
      ∀ path ∈ action.changedFiles, env.safePath path = some path := by
    rw [gather_eq_self_iff (by decide)]
    refine and_iff_left ?_
    rw [← first.changedFiles]
    exact ⟨nodup_gather List.nodup_nil _, length_gather_le (by decide) _⟩
  have fileChanges : (action.fileChanges.filterMap env.readFileChange).take 30 =
        action.fileChanges ↔ ∀ change ∈ action.fileChanges,
      env.safePath change.path = some change.path ∧
        ∀ entry ∈ change.texts, env.sanitizeRepairText entry.1 entry.2 = entry.1 := by
    rw [take_filterMap_eq_self_iff (first.fileChanges ▸ List.length_take_le 30 _)]
    refine forall₂_congr fun change member => ?_
    rw [← first.fileChanges] at member
    obtain ⟨rawChange, -, same⟩ := List.mem_filterMap.mp (List.mem_of_mem_take member)
    exact readFileChange_eq_iff same
  rw [← RepairTextEnv.reads_iff]
  constructor
  · intro again
    constructor
    · simp only [DetailedAction.texts, List.forall_mem_append, List.forall_mem_cons,
        List.forall_mem_map, List.forall_mem_flatMap]
      exact ⟨⟨⟨⟨⟨again.actionId, again.rootCauseGroupId, again.rootCause, again.evidence,
          again.solutionSummary, again.rationale, again.commitSha, again.validationStatus,
          again.failureReason, again.startedAt, again.completedAt, nofun⟩,
        categories.mp (gather_eq_self_of_filter again.categories)⟩, jobNames.mp again.jobNames⟩,
        measures.mp again.measures⟩,
        fun change member => (fileChanges.mp again.fileChanges change member).2⟩
    · rw [DetailedAction.paths, List.forall_mem_append, List.forall_mem_map]
      exact ⟨changedFiles.mp again.changedFiles,
        fun change member => (fileChanges.mp again.fileChanges change member).1⟩
  · rintro ⟨texts, paths⟩
    simp only [DetailedAction.texts, List.forall_mem_append, List.forall_mem_cons,
      List.forall_mem_map, List.forall_mem_flatMap] at texts
    rw [DetailedAction.paths, List.forall_mem_append, List.forall_mem_map] at paths
    obtain ⟨⟨⟨⟨⟨actionId, group, rootCause, evidence, summary, rationale, commitSha, validation,
      failure, started, completed, -⟩, named⟩, jobs⟩, measured⟩, changed⟩ := texts
    refine ⟨actionId, group, rootCause, evidence, summary, rationale, commitSha, validation,
      failure, started, completed, ?_, ?_, ?_, jobNames.mpr jobs, measures.mpr measured,
      changedFiles.mpr paths.1,
      fileChanges.mpr fun change member => ⟨paths.2 change member, changed change member⟩, rfl⟩
    · rw [← first.confidence]
      exact oneOf_oneOf (by simp [confidenceValues]) raw.confidence
    · rw [← first.status]
      exact oneOf_oneOf (by simp [actionStatusValues]) raw.status
    · rw [categories.mpr named, List.filter_eq_self]
      intro category member
      rw [← first.categories] at member
      exact (List.mem_filter.mp member).2

end RepairStateEnv

/-! ## The cycle -/

theorem StateText.cut_cut (field : StateText) (text : String) :
    field.cut (field.cut text) = field.cut text := by
  unfold cut
  split
  · rfl
  · rw [String.toList_ofList, List.take_take, Nat.min_self]

theorem StateNumber.bounded_bounded (field : StateNumber) (value : Int) :
    field.bounded (field.bounded value) = field.bounded value := by
  cases field <;> simp [bounded]

/-- What holds of a state that was read. -/
structure RepairState.Read
    {Evidence : Type}
    (env : RepairStateEnv Evidence)
    (state : RepairState Evidence) : Prop where
  text : ∀ field, field.cut (state.text field) = state.text field
  number : ∀ field, field.bounded (state.number field) = state.number field
  explanations : ∀ record ∈ state.sourceFailureExplanations ++ state.failureExplanations,
    ∃ raw, env.readExplanation raw = record
  actions : ∀ action ∈ state.repairActions, ∃ raw, env.readAction raw = action

/-- One more pass changes no text of the state, and no number of it is a NaN. -/
structure RepairState.Settled
    {Evidence : Type}
    (env : RepairStateEnv Evidence)
    (state : RepairState Evidence) : Prop where
  explanations : ∀ record ∈ state.sourceFailureExplanations ++ state.failureExplanations,
    env.SettledExplanation record
  actions : ∀ action ∈ state.repairActions, env.SettledAction action
  coverage : ∀ field, state.coverage field ≠ some .nan
  evidence : ∀ record ∈ state.dependencyEvidence, env.holdsNan record = false

section Cycle

variable {Evidence : Type} {env : RepairStateEnv Evidence} {state : RepairState Evidence}

theorem read_of_fromJson
    {document : Option (StateDocument Evidence)}
    (read : env.fromJson document = some state) :
    state.Read env := by
  cases document with
  | none =>
    cases read
    exact ⟨fun field => by cases field <;> rfl, fun field => by cases field <;> rfl, nofun, nofun⟩
  | some decoded =>
    simp only [RepairStateEnv.fromJson, bind, Option.bind_eq_some_iff, pure, Option.some.injEq]
      at read
    obtain ⟨phase, -, coveragePhase, -, number, -, texts, -, coverage, -, source, -, failure, -,
      actions, -, evidence, -, results, -, rfl⟩ := read
    refine ⟨fun field => field.cut_cut _, fun field => field.bounded_bounded _, ?_, ?_⟩
    · intro record member
      rw [List.mem_append, List.mem_map, List.mem_map] at member
      rcases member with ⟨raw, -, same⟩ | ⟨raw, -, same⟩ <;> exact ⟨raw, same⟩
    · intro action member
      obtain ⟨raw, -, same⟩ := List.mem_map.mp member
      exact ⟨raw, same⟩

theorem reread_eq_iff (read : state.Read env) :
    env.reread state = state ↔
      (∀ record ∈ state.sourceFailureExplanations ++ state.failureExplanations,
        env.SettledExplanation record) ∧
      ∀ action ∈ state.repairActions, env.SettledAction action := by
  have explanations : ∀ record ∈ state.sourceFailureExplanations ++ state.failureExplanations,
      (env.readExplanation record = record ↔ env.SettledExplanation record) := by
    intro record member
    obtain ⟨raw, same⟩ := read.explanations record member
    exact RepairStateEnv.readExplanation_eq_iff same
  have actions : ∀ action ∈ state.repairActions,
      (env.readAction action = action ↔ env.SettledAction action) := by
    intro action member
    obtain ⟨raw, same⟩ := read.actions action member
    exact RepairStateEnv.readAction_eq_iff same
  rw [← forall₂_congr explanations, ← forall₂_congr actions, List.forall_mem_append,
    ← RepairStateEnv.map_eq_self_iff, ← RepairStateEnv.map_eq_self_iff,
    ← RepairStateEnv.map_eq_self_iff]
  constructor
  · intro same
    exact ⟨⟨congrArg RepairState.sourceFailureExplanations same,
      congrArg RepairState.failureExplanations same⟩, congrArg RepairState.repairActions same⟩
  · rintro ⟨⟨source, failure⟩, repair⟩
    rw [RepairStateEnv.reread, source, failure, repair, funext read.text, funext read.number]

end Cycle

/-- A loaded state is equal to what is loaded after it is stored exactly when it is settled, and
then any number of suspensions keeps it. -/
theorem repair_state_survives_iff
    {Evidence : Type}
    (env : RepairStateEnv Evidence)
    {document : Option (StateDocument Evidence)}
    {state : RepairState Evidence}
    (read : env.fromJson document = some state) :
    ((∃ again, env.fromJson (some state.toJson) = some again ∧ again.Equals env state) ↔
      state.Settled env) ∧
    (state.Settled env → ∀ count, state.resumed env count = some state) := by
  have fixed := reread_eq_iff (read_of_fromJson read)
  refine ⟨⟨?_, ?_⟩, fun settled count => ?_⟩
  · rintro ⟨again, loaded, same, coverage, evidence⟩
    rw [env.fromJson_toJson, same, Option.some.injEq] at loaded
    obtain ⟨explanations, actions⟩ := fixed.mp loaded
    subst same
    exact ⟨explanations, actions, coverage, evidence⟩
  · intro settled
    refine ⟨state, ?_, rfl, settled.coverage, settled.evidence⟩
    rw [env.fromJson_toJson, fixed.mpr ⟨settled.explanations, settled.actions⟩]
  · induction count with
    | zero => rfl
    | succ count ih =>
      rw [RepairState.resumed, env.fromJson_toJson,
        fixed.mpr ⟨settled.explanations, settled.actions⟩]
      exact ih

namespace StateSample

def env : RepairStateEnv Unit where
  toRepairTextEnv := { redactValues := id, redactSecrets := id }
  str
    | .str text => text
    | _ => ""
  int
    | .int number => some number
    | _ => none
  float
    | .float number => some number
    | _ => none
  isWebUrl _ := false
  holdsNan _ := false
  str_text _ := rfl
  int_number _ := rfl
  float_number _ := rfl

/-- A state with one action, before its texts are cleaned. -/
def validated (status : String) : RepairState Unit where
  repairActions := [{ validationStatus := status }]

end StateSample

open StateSample in
theorem success_is_kept :
    env.fromJson (some (validated "success").toJson) = some (env.reread (validated "success")) ∧
      ∀ count, (env.reread (validated "success")).resumed env count =
        some (env.reread (validated "success")) :=
  ⟨env.fromJson_toJson (validated "success"),
    (repair_state_survives_iff env (env.fromJson_toJson (validated "success"))).2
      ⟨nofun, fun action member => by
        cases List.mem_singleton.mp member
        exact ⟨by decide, nofun⟩, nofun, nofun⟩⟩

open StateSample in
/-- The status is cut behind its blank; the next time the blank is stripped. -/
theorem cut_status_is_not_kept :
    ∃ document state, env.fromJson document = some state ∧
      ¬ ∃ again, env.fromJson (some state.toJson) = some again ∧ again.Equals env state := by
  refine ⟨_, _, env.fromJson_toJson (validated "aaaaaaaaaaaaaaaaaaaaaaaaaaaaaaa b"), ?_⟩
  rintro ⟨again, loaded, same, -⟩
  rw [env.fromJson_toJson, same, Option.some.injEq] at loaded
  have status := congrArg (·.repairActions.map (·.validationStatus)) loaded
  revert status
  decide

end MrAgent
