import MrAgent.PlanReadback
import MrAgent.RootCauseGrouping

namespace MrAgent

/-!
# Drafts of the initial plan

`_work_items_from_pipeline` drafts one work item for a root-cause group. The
draft is accepted exactly when the job names of the group are few enough and stay
apart when white space is normalised and long names are cut, and the kind and the
tool of its first job are short enough.
-/

/-! ## Words -/

variable {c : Char}

theorem words_cons_space
    (space : isSpace c = true)
    (text : List Char) :
    words (c :: text) = words text := by
  rw [words, words, List.splitOnP_cons_eq_if_modifyHead, if_pos space, List.filter_cons_of_neg (by simp)]

theorem words_cons_letter
    (letter : isSpace c = false)
    (text : List Char) :
    ∃ word rest, words (c :: text) = (c :: word) :: rest := by
  have noSpace : ¬ isSpace c = true := by simp [letter]
  rw [words, List.splitOnP_cons_eq_if_modifyHead, if_neg noSpace]
  cases pieces : text.splitOnP isSpace with
  | nil => exact absurd pieces (List.splitOnP_ne_nil isSpace text)
  | cons word rest =>
      refine ⟨word, rest.filter (· ≠ []), ?_⟩
      rw [List.modifyHead_cons, List.filter_cons_of_pos (by simp)]

theorem words_cases
    (text : List Char) :
    ((∀ c ∈ text, isSpace c = true) ∧ words text = []) ∨
      ∃ c ∈ text, isSpace c = false ∧ ∃ word rest, words text = (c :: word) :: rest := by
  induction text with
  | nil => exact Or.inl ⟨fun _ member => absurd member List.not_mem_nil, rfl⟩
  | cons first rest ih =>
      cases kind : isSpace first with
      | false => exact Or.inr ⟨first, List.mem_cons_self, kind, words_cons_letter kind rest⟩
      | true =>
          rw [words_cons_space kind]
          rcases ih with ⟨blank, none⟩ | ⟨c, member, letter, found⟩
          · exact Or.inl ⟨List.forall_mem_cons.mpr ⟨kind, blank⟩, none⟩
          · exact Or.inr ⟨c, List.mem_cons_of_mem first member, letter, found⟩

/-- A text holds something else than white space. -/
def Inked (value : String) : Prop :=
  ∃ c ∈ value.toList, isSpace c = false

instance (value : String) : Decidable (Inked value) :=
  inferInstanceAs (Decidable (∃ c ∈ value.toList, isSpace c = false))

variable (value : String)

theorem boundedText_cases
    (limit : Nat) :
    (¬ Inked value ∧ boundedText value (limit + 1) = "") ∨
      (Inked value ∧ Inked (boundedText value (limit + 1))) := by
  rcases words_cases value.toList with ⟨blank, none⟩ | ⟨c, member, letter, word, rest, found⟩
  · refine Or.inl ⟨?_, by rw [boundedText, none]; rfl⟩
    rintro ⟨c, member, letter⟩
    rw [blank c member] at letter
    cases letter
  · refine Or.inr ⟨⟨c, member, letter⟩, c, ?_, letter⟩
    rw [boundedText, found, String.toList_ofList]
    cases rest with
    | nil => exact List.mem_cons_self
    | cons next later => exact List.mem_cons_self

theorem boundedText_eq_empty_iff
    (limit : Nat) :
    boundedText value (limit + 1) = "" ↔ ¬ Inked value := by
  rcases boundedText_cases value limit with ⟨blank, empty⟩ | ⟨inked, c, member, letter⟩
  · exact iff_of_true empty blank
  · refine iff_of_false (fun empty => ?_) (not_not_intro inked)
    rw [empty] at member
    exact absurd member List.not_mem_nil

theorem inked_boundedText
    {value : String}
    {limit : Nat}
    (nonempty : boundedText value (limit + 1) ≠ "") :
    Inked (boundedText value (limit + 1)) := by
  rcases boundedText_cases value limit with ⟨-, empty⟩ | ⟨-, inked⟩
  · exact absurd empty nonempty
  · exact inked

theorem boundedUniqueValues_isSome_iff
    {values : List String} :
    (∃ read, boundedUniqueValues values = some read) ↔
      (∀ value ∈ values, Inked value) ∧ (values.map (boundedText · 500)).Nodup := by
  simp only [boundedUniqueValues_eq_some, exists_eq_left]
  refine and_congr_left fun _ => ?_
  simp only [List.mem_map, not_exists, not_and, boundedText_eq_empty_iff _ 499, not_not]

/-! ## Drafts -/

/-- Job names that a work item accepts. -/
def JobNamesFit (names : List String) : Prop :=
  names.length ≤ 20 ∧ (∀ name ∈ names, Inked name) ∧ (names.map (boundedText · 500)).Nodup

instance (names : List String) : Decidable (JobNamesFit names) :=
  inferInstanceAs (Decidable (_ ∧ _ ∧ _))

/-- The Pipeline items of a root cause. -/
def relatedItems (pipeline : ToolResult) (rootId : String) : List PipelineWorkItem :=
  (pipeline.workItems.getD []).filter (·.rootCauseId = rootId)

/-- The first related item by its kind, which gives the kind and the tool. -/
def primaryItem (pipeline : ToolResult) (rootId : String) : Option PipelineWorkItem :=
  ((relatedItems pipeline rootId).filter (·.kind ≠ "")).argmin fun item => workItemKindOrder item.kind

/-- A group whose job names, kind and tool are within the bounds of a work item. -/
structure GroupFits (pipeline : ToolResult) (group : RootCauseGroup) : Prop where
  names : JobNamesFit (groupJobNames group (relatedItems pipeline group.rootCauseId))
  kind : ∀ item, primaryItem pipeline group.rootCauseId = some item → item.kind.length ≤ 40
  tool : ∀ item, primaryItem pipeline group.rootCauseId = some item → item.requiredTool.length ≤ 80

theorem groupJobNames_ne_nil
    (group : RootCauseGroup)
    (related : List PipelineWorkItem) :
    groupJobNames group related ≠ [] := by
  rw [groupJobNames]
  split
  · assumption
  · split
    · assumption
    · exact List.cons_ne_nil _ _

theorem lengthIn_orElse
    {most : Nat}
    {value fallback : String}
    (fits : lengthIn 1 most fallback = true) :
    lengthIn 1 most (orElse value fallback) = true ↔ value.length ≤ most := by
  rw [orElse]
  split
  · rename_i empty
    rw [empty]
    exact iff_of_true fits (Nat.zero_le most)
  · rename_i nonempty
    have positive : 1 ≤ value.length := Nat.pos_of_ne_zero fun zero =>
      nonempty (String.length_eq_zero_iff.mp zero)
    rw [lengthIn, decide_eq_true positive, Bool.true_and, decide_eq_true_iff]

variable {env : PlanEnv}

theorem mem_requiredChecks
    {kind : String}
    {names : List String}
    {check : String}
    (member : check ∈ requiredChecks env kind names) :
    check ∈ ["diff_check", "lint_check", "build_check", "test_check"] := by
  simp only [requiredChecks, List.mem_append] at member
  rcases member with ((diff | lint) | build) | test
  · rw [List.mem_singleton.mp diff]
    decide
  · split at lint
    · rw [List.mem_singleton.mp lint]
      decide
    · exact absurd lint List.not_mem_nil
  · split at build
    · rw [List.mem_singleton.mp build]
      decide
    · exact absurd build List.not_mem_nil
  · split at test
    · rw [List.mem_singleton.mp test]
      decide
    · exact absurd test List.not_mem_nil

theorem checks_accepted
    {checks : List String}
    (known : ∀ check ∈ checks, check ∈ ["diff_check", "lint_check", "build_check", "test_check"])
    (distinct : checks.Nodup) :
    checks.length ≤ 10 ∧ boundedUniqueValues checks = some checks := by
  have plain : ∀ check ∈ ["diff_check", "lint_check", "build_check", "test_check"],
      boundedText check 500 = check ∧ check ≠ "" := by decide
  have few := (List.subperm_of_subset distinct known).length_le
  have same : checks.map (boundedText · 500) = checks := by
    conv_rhs => rw [← List.map_id checks]
    exact List.map_congr_left fun check member => (plain check (known check member)).1
  refine ⟨le_trans few (by decide), boundedUniqueValues_eq_some.mpr ⟨same.symm, ?_, distinct⟩⟩
  exact fun member => (plain "" (known "" member)).2 rfl

theorem safeId_of_hexadecimal
    {value : String}
    (size : value.length = 20)
    (digits : ∀ c ∈ value.toList, hexadecimal c = true) :
    safeId value = true := by
  have alphanumeric : ∀ c, hexadecimal c = true → c.isAlphanum = true := by
    intro c digit
    have all : ∀ c ∈ "0123456789abcdef".toList, c.isAlphanum = true := by decide
    exact all c (of_decide_eq_true digit)
  rw [← String.length_toList] at size
  rw [safeId]
  cases text : value.toList with
  | nil =>
      rw [text] at size
      cases size
  | cons first rest =>
      rw [text] at size digits
      rw [List.length_cons] at size
      simp only [Bool.and_eq_true, List.all_eq_true, Bool.or_eq_true, decide_eq_true_iff]
      refine ⟨⟨alphanumeric first (digits first List.mem_cons_self), by omega⟩, fun c member => ?_⟩
      exact Or.inl (alphanumeric c (digits c (List.mem_cons_of_mem first member)))

theorem modelValidate_isSome_iff
    {item : RepairWorkItem} :
    (∃ read, item.modelValidate = some read) ↔
      item.fieldsValid = true ∧ (∃ names, boundedUniqueValues item.jobNames = some names) ∧
        (∃ evidence, boundedUniqueValues item.failureEvidence = some evidence) ∧
        (∃ checks, boundedUniqueValues item.requiredChecks = some checks) ∧
        ∃ paths, validatePaths item.allowedPaths = some paths := by
  constructor
  · rintro ⟨read, accepted⟩
    obtain ⟨fields, names, evidence, checks, paths, -⟩ :=
      RepairWorkItem.modelValidate_cases accepted
    exact ⟨fields, ⟨_, names⟩, ⟨_, evidence⟩, ⟨_, checks⟩, _, paths⟩
  · rintro ⟨fields, ⟨names, isNames⟩, ⟨evidence, isEvidence⟩, ⟨checks, isChecks⟩, paths, isPaths⟩
    simp only [RepairWorkItem.modelValidate, fields, isNames, isEvidence, isChecks, isPaths,
      if_true]
    exact ⟨_, rfl⟩

section Draft

variable (env : PlanEnv) (pipeline : ToolResult) (rootId : String) (group : RootCauseGroup)

theorem draft_evidence :
    (draftWorkItem env pipeline rootId group).failureEvidence.length = 1 ∧
      ∃ read, boundedUniqueValues (draftWorkItem env pipeline rootId group).failureEvidence =
        some read := by
  refine ⟨rfl, boundedUniqueValues_isSome_iff.mpr ⟨fun value member => ?_, List.nodup_singleton _⟩⟩
  rw [List.mem_singleton.mp member, orElse]
  split
  · refine ⟨'P', ?_, by decide⟩
    rw [String.toList_append]
    exact List.mem_append_left _ (by decide)
  · rename_i nonempty
    exact inked_boundedText nonempty

theorem draft_checks :
    (draftWorkItem env pipeline rootId group).requiredChecks.length ≤ 10 ∧
      ∃ read, boundedUniqueValues (draftWorkItem env pipeline rootId group).requiredChecks =
        some read := by
  have accepted := @checks_accepted (draftWorkItem env pipeline rootId group).requiredChecks
    (fun check member => by
      rcases List.mem_append.mp (List.mem_eraseDups.mp member) with own | others
      · exact mem_requiredChecks own
      · obtain ⟨item, -, other⟩ := List.mem_flatMap.mp others
        exact mem_requiredChecks other)
    (GroupedList.nodup_eraseDups _)
  exact ⟨accepted.1, _, accepted.2⟩

theorem draft_paths
    (paths : ∀ text, env.diagnosticPath text = "" ∨
      ∃ raw, safePath raw = some (env.diagnosticPath text)) :
    (draftWorkItem env pipeline rootId group).allowedPaths.length ≤ 30 ∧
      ∃ read, validatePaths (draftWorkItem env pipeline rootId group).allowedPaths = some read := by
  rw [draftWorkItem]
  dsimp only
  rcases paths (boundedText group.canonicalDiagnostic 500) with none | ⟨raw, safe⟩
  · rw [if_pos none]
    exact ⟨Nat.zero_le 30, _, validatePaths_self (fun _ member => absurd member List.not_mem_nil)
      List.nodup_nil⟩
  · split
    · exact ⟨Nat.zero_le 30, _, validatePaths_self
        (fun _ member => absurd member List.not_mem_nil) List.nodup_nil⟩
    · refine ⟨Nat.le_add_left 1 29, _, validatePaths_self (fun path member => ?_) (List.nodup_singleton _)⟩
      rw [List.mem_singleton.mp member]
      exact safePath_idempotent safe

theorem draft_kind :
    lengthIn 1 40 (draftWorkItem env pipeline rootId group).kind = true ↔
      ∀ item, primaryItem pipeline rootId = some item → item.kind.length ≤ 40 := by
  have shape : (draftWorkItem env pipeline rootId group).kind =
      orElse (((primaryItem pipeline rootId).map (·.kind)).getD "") "other" := rfl
  rw [shape, lengthIn_orElse (by decide)]
  cases primaryItem pipeline rootId with
  | none => simp
  | some item => simp

theorem draft_tool :
    lengthIn 1 80 (draftWorkItem env pipeline rootId group).requiredTool = true ↔
      ∀ item, primaryItem pipeline rootId = some item → item.requiredTool.length ≤ 80 := by
  have bound : lengthIn 1 80 (orElse (((primaryItem pipeline rootId).map (·.requiredTool)).getD "")
      "apply_repo_patch_tool") = true ↔
      ∀ item, primaryItem pipeline rootId = some item → item.requiredTool.length ≤ 80 := by
    rw [lengthIn_orElse (by decide)]
    cases primaryItem pipeline rootId with
    | none => simp
    | some item => simp
  rw [← bound]
  have shape : (draftWorkItem env pipeline rootId group).requiredTool =
      if orElse (((primaryItem pipeline rootId).map (·.requiredTool)).getD "")
          "apply_repo_patch_tool" = "generate_code_tool" then "apply_repo_patch_tool"
      else orElse (((primaryItem pipeline rootId).map (·.requiredTool)).getD "")
        "apply_repo_patch_tool" := rfl
  rw [shape]
  split
  · rename_i generated
    rw [generated]
    decide
  · exact Iff.rfl

end Draft

theorem draft_accepted_iff
    (paths : ∀ text, env.diagnosticPath text = "" ∨
      ∃ raw, safePath raw = some (env.diagnosticPath text))
    (pipeline : ToolResult)
    {group : RootCauseGroup}
    (size : group.rootCauseId.length = 20)
    (identity : safeId group.rootCauseId = true) :
    (∃ item, (draftWorkItem env pipeline group.rootCauseId group).modelValidate = some item) ↔
      GroupFits pipeline group := by
  have names : (draftWorkItem env pipeline group.rootCauseId group).jobNames =
      groupJobNames group (relatedItems pipeline group.rootCauseId) := rfl
  have id : (draftWorkItem env pipeline group.rootCauseId group).workItemId = group.rootCauseId := rfl
  have signature : (draftWorkItem env pipeline group.rootCauseId group).failureSignature =
      group.rootCauseId := rfl
  have hypothesis : lengthIn 0 1000
      (draftWorkItem env pipeline group.rootCauseId group).hypothesis = true := by
    have bound := length_boundedText_le group.canonicalDiagnostic 500
    rw [lengthIn, Bool.and_eq_true, decide_eq_true_iff, decide_eq_true_iff]
    exact ⟨Nat.zero_le _, le_trans bound (by decide)⟩
  have inside : lengthIn 1 80 group.rootCauseId = true := by
    rw [lengthIn, size]
    rfl
  have nonempty := List.length_pos_iff.mpr
    (groupJobNames_ne_nil group (relatedItems pipeline group.rootCauseId))
  have evidence := draft_evidence env pipeline group.rootCauseId group
  have checks := draft_checks env pipeline group.rootCauseId group
  have allowed := draft_paths env pipeline group.rootCauseId group paths
  rw [modelValidate_isSome_iff, RepairWorkItem.fieldsValid, id, signature, names, inside, identity,
    hypothesis, evidence.1]
  simp only [evidence.2, checks.2, allowed.2, boundedUniqueValues_isSome_iff, Bool.and_eq_true,
    decide_eq_true_iff, draft_kind, draft_tool, checks.1, allowed.1, maxWorkItemEvidence,
    maxWorkItemPaths, and_true, true_and]
  constructor
  · rintro ⟨⟨⟨⟨⟨-, few⟩, kind⟩, tool⟩, -⟩, distinct⟩
    exact ⟨⟨few, distinct⟩, kind, tool⟩
  · rintro ⟨⟨few, distinct⟩, kind, tool⟩
    exact ⟨⟨⟨⟨⟨nonempty, few⟩, kind⟩, tool⟩, le_refl 1, rfl⟩, distinct⟩

end MrAgent
