import MrAgent.RuleScope

namespace MrAgent

open FallibleProgram

/-!
# The effective skill of a call

A session selects the rules for a call and adds the references that they name.
References are kept in the session once they are read, each clipped to the
budget, and clipped once more to what the call has left of it.
-/

/-- `MAX_PROJECT_REFERENCE_CHARS`. -/
def maxProjectReferenceChars : Nat := 20000

structure ProjectSkillReference where
  path : String
  content : String
  contentHash : String
  sourceChars : Nat := 0
deriving DecidableEq

/-- A rule set with the fields that loading adds. -/
structure LoadedRuleSet extends ProjectRuleSet where
  targetBranch : String := ""
  targetSha : String := ""
  status : String := "loaded"
  error : String := ""

structure EffectiveProjectSkill where
  project : String
  target : String
  targetBranch : String
  targetSha : String
  status : String
  manifestHash : String
  skillHash : String
  rules : List PromptRule := []
  matchedFiles : List (String × List String) := []
  references : List ProjectSkillReference := []
  truncated : Bool := false
  error : String := ""
deriving DecidableEq

/-- What the skill hash is taken from. -/
structure SkillPayload where
  manifestHash : String
  rules : List String
  references : List (String × String)

/-- What a session takes from Python and from the provider of the files. -/
structure SkillEnv where
  sha256 : String → String
  dumps : SkillPayload → String
  /-- A file at a commit: an error, no such file, or its content. -/
  getFileContentAtRef : String → String → Except String (Option String)

/-- The arguments of a call. -/
structure SkillRequest where
  target : String
  languages : List String := []
  files : List String := []

structure ProjectSkillSession where
  ruleSet : LoadedRuleSet
  referenceCache : List (String × ProjectSkillReference) := []

/-! ## The selection of a call -/

namespace SkillRequest

variable (request : SkillRequest)

/-- `normalized_files`. -/
def normalizedFiles : List String :=
  (request.files.map fun path =>
    String.ofList ((forwardSlashes path).toList.dropWhile (· = '/'))).eraseDups

/-- Whether a rule is selected. -/
def selects (rule : PromptRule) : Bool :=
  publicTarget request.target ∈ rule.targets && matchesLanguages rule request.languages &&
    (request.normalizedFiles = [] || matchedFiles rule request.normalizedFiles ≠ [])

/-- The selected rules. -/
def selected (ruleSet : LoadedRuleSet) : List PromptRule :=
  ruleSet.rules.filter request.selects

/-- The references of the selected rules, each once. -/
def referencePaths (ruleSet : LoadedRuleSet) : List String :=
  ((request.selected ruleSet).flatMap (·.references)).eraseDups

end SkillRequest

/-! ## The references of a call -/

/-- `content[:size]`. -/
def clip (content : String) (size : Nat) : String :=
  String.ofList (content.toList.take size)

/-- What the loop over the references carries. -/
structure ReferenceScan where
  references : List ProjectSkillReference := []
  referenceBudget : Nat := maxProjectReferenceChars
  truncated : Bool := false

/-- A reference within what is left of the budget. -/
def ReferenceScan.add (scan : ReferenceScan) (reference : ProjectSkillReference) : ReferenceScan :=
  let added :=
    if scan.referenceBudget < reference.content.length then
      { references := scan.references ++
          [{ reference with content := clip reference.content scan.referenceBudget }]
        referenceBudget := 0
        truncated := true }
    else
      { scan with
        references := scan.references ++ [reference]
        referenceBudget := scan.referenceBudget - reference.content.length }
  let truncated := added.truncated || reference.content.length < reference.sourceChars
  { added with truncated := truncated || added.referenceBudget = 0 }

namespace SkillEnv

variable (env : SkillEnv)

/-- The content of a reference. -/
def readContent (ruleSet : LoadedRuleSet) (path : String) : Except String String := do
  match ← env.getFileContentAtRef (".pr_agent/skills/review/" ++ path) ruleSet.targetSha with
  | none => .error s!"missing project skill reference: {path}"
  | some content => .ok content

/-- A reference as it is kept. -/
def keptReference (path content : String) : ProjectSkillReference where
  path := path
  content := clip content maxProjectReferenceChars
  contentHash := env.sha256 content
  sourceChars := content.length

/-- The loop over the references; a reference that cannot be read ends it. -/
def scanReferences
    (ruleSet : LoadedRuleSet)
    (cache : List (String × ProjectSkillReference))
    (scan : ReferenceScan) :
    List String → List (String × ProjectSkillReference) × Except String ReferenceScan
  | [] => (cache, .ok scan)
  | path :: rest =>
    match cache.lookup path with
    | some reference => scanReferences ruleSet cache (scan.add reference) rest
    | none =>
      match env.readContent ruleSet path with
      | .error reason => (cache, .error reason)
      | .ok content =>
        let reference := env.keptReference path content
        let clipped := reference.content.length < content.length
        let scan := { scan with truncated := scan.truncated || clipped }
        scanReferences ruleSet (cache ++ [(path, reference)]) (scan.add reference) rest

/-- What a call returns for some references. -/
def effectiveSkill (ruleSet : LoadedRuleSet) (request : SkillRequest) :
    Except String ReferenceScan → EffectiveProjectSkill
  | .error reason =>
    { project := ruleSet.project
      target := publicTarget request.target
      targetBranch := ruleSet.targetBranch
      targetSha := ruleSet.targetSha
      status := "invalid"
      manifestHash := ruleSet.manifestHash
      skillHash := env.sha256 "[]"
      error := reason }
  | .ok scan =>
    { project := ruleSet.project
      target := publicTarget request.target
      targetBranch := ruleSet.targetBranch
      targetSha := ruleSet.targetSha
      status := ruleSet.status
      manifestHash := ruleSet.manifestHash
      skillHash := env.sha256 (env.dumps {
        manifestHash := ruleSet.manifestHash
        rules := (request.selected ruleSet).map (·.id)
        references := scan.references.map fun reference => (reference.path, reference.contentHash) })
      rules := request.selected ruleSet
      matchedFiles := (request.selected ruleSet).map fun rule =>
        (rule.id, matchedFiles rule request.normalizedFiles)
      references := scan.references
      truncated := scan.truncated
      error := ruleSet.error }

/-- `ProjectSkillSession.effective`. -/
def effective (session : ProjectSkillSession) (request : SkillRequest) :
    ProjectSkillSession × EffectiveProjectSkill :=
  let scanned := env.scanReferences session.ruleSet session.referenceCache {}
    (request.referencePaths session.ruleSet)
  ({ session with referenceCache := scanned.1 },
    env.effectiveSkill session.ruleSet request scanned.2)

/-- A session after some calls. -/
def after (session : ProjectSkillSession) (calls : List SkillRequest) : ProjectSkillSession :=
  calls.foldl (fun session call => (env.effective session call).1) session

end SkillEnv

/-! ## The references of a fresh session -/

namespace SkillEnv

variable {env : SkillEnv} {ruleSet : LoadedRuleSet}

/-- The loop over the references when each of them is read. -/
def freshScan (env : SkillEnv) (ruleSet : LoadedRuleSet) :
    ReferenceScan → List String → Except String ReferenceScan
  | scan, [] => .ok scan
  | scan, path :: rest => do
    let content ← env.readContent ruleSet path
    freshScan env ruleSet (scan.add (env.keptReference path content)) rest

/-- What is kept is what would be read. -/
def CacheAgrees
    (env : SkillEnv)
    (ruleSet : LoadedRuleSet)
    (cache : List (String × ProjectSkillReference)) : Prop :=
  ∀ path reference, cache.lookup path = some reference →
    ∃ content, env.readContent ruleSet path = .ok content ∧
      reference = env.keptReference path content

variable {reference : ProjectSkillReference} {scan : ReferenceScan}

theorem add_of_lt
    (long : scan.referenceBudget < reference.content.length) :
    scan.add reference =
      { references := scan.references ++
          [{ reference with content := clip reference.content scan.referenceBudget }]
        referenceBudget := 0
        truncated := true } := by
  simp [ReferenceScan.add, long]

theorem add_of_le
    (fits : reference.content.length ≤ scan.referenceBudget) :
    scan.add reference =
      { references := scan.references ++ [reference]
        referenceBudget := scan.referenceBudget - reference.content.length
        truncated := scan.truncated || decide (reference.content.length < reference.sourceChars) ||
          decide (scan.referenceBudget - reference.content.length = 0) } := by
  simp only [ReferenceScan.add, Nat.not_lt.mpr fits, ↓reduceIte]

theorem add_clipped
    (scan : ReferenceScan)
    (path content : String) :
    let reference := env.keptReference path content
    ReferenceScan.add
        { scan with truncated := scan.truncated || decide (reference.content.length < content.length) }
        reference =
      scan.add reference := by
  intro reference
  have sameFlag : reference.sourceChars = content.length := rfl
  rcases Nat.lt_or_ge scan.referenceBudget reference.content.length with long | fits
  · simp only [ReferenceScan.add, long, ↓reduceIte]
  · rw [add_of_le fits]
    simp only [ReferenceScan.add, Nat.not_lt.mpr fits, ↓reduceIte, sameFlag, Bool.or_assoc,
      Bool.or_self_left]

variable {cache : List (String × ProjectSkillReference)}

theorem CacheAgrees.keep
    (agrees : env.CacheAgrees ruleSet cache)
    {path content : String}
    (read : env.readContent ruleSet path = .ok content) :
    env.CacheAgrees ruleSet (cache ++ [(path, env.keptReference path content)]) := by
  intro other reference found
  rw [List.lookup_append, Option.or_eq_some_iff] at found
  rcases found with old | ⟨_, new⟩
  · exact agrees other reference old
  · rw [List.lookup_cons] at new
    split at new
    · rename_i same
      cases new
      rw [beq_iff_eq.mp same]
      exact ⟨content, read, rfl⟩
    · cases new

theorem scanReferences_eq
    (agrees : env.CacheAgrees ruleSet cache)
    (scan : ReferenceScan)
    (paths : List String) :
    (env.scanReferences ruleSet cache scan paths).2 = env.freshScan ruleSet scan paths ∧
      env.CacheAgrees ruleSet (env.scanReferences ruleSet cache scan paths).1 := by
  induction paths generalizing cache scan with
  | nil => exact ⟨rfl, agrees⟩
  | cons path rest ih =>
      rw [scanReferences, freshScan]
      split
      · rename_i reference found
        obtain ⟨content, read, rfl⟩ := agrees path reference found
        rw [read]
        exact ih agrees _
      · split
        · rename_i reason failed
          rw [failed]
          exact ⟨rfl, agrees⟩
        · rename_i content read
          simp only [read, add_clipped]
          exact ih (agrees.keep read) _

variable {session : ProjectSkillSession}

theorem effective_eq
    (agrees : env.CacheAgrees session.ruleSet session.referenceCache)
    (request : SkillRequest) :
    (env.effective session request).2 =
      env.effectiveSkill session.ruleSet request
        (env.freshScan session.ruleSet {} (request.referencePaths session.ruleSet)) := by
  rw [effective, (scanReferences_eq agrees _ _).1]

theorem after_agrees
    (agrees : env.CacheAgrees session.ruleSet session.referenceCache)
    (calls : List SkillRequest) :
    (env.after session calls).ruleSet = session.ruleSet ∧
      env.CacheAgrees session.ruleSet (env.after session calls).referenceCache := by
  induction calls generalizing session with
  | nil => exact ⟨rfl, agrees⟩
  | cons call rest ih =>
      exact @ih (env.effective session call).1 (scanReferences_eq agrees _ _).2

end SkillEnv

/-! ## The budget -/

theorem length_clip
    (content : String)
    (size : Nat) :
    (clip content size).length = min size content.length := by
  rw [clip, String.length_ofList, List.length_take, String.length_toList]

theorem clip_eq_self_iff
    {content : String}
    {size : Nat} :
    clip content size = content ↔ content.length ≤ size := by
  constructor
  · intro same
    rw [← same, length_clip]
    exact Nat.min_le_left _ _
  · intro short
    rw [clip, List.take_of_length_le (by rwa [String.length_toList]), String.ofList_toList]

namespace SkillEnv

variable {env : SkillEnv} {ruleSet : LoadedRuleSet}

/-- A reference is not all of its file. -/
def Differs (env : SkillEnv) (ruleSet : LoadedRuleSet) (reference : ProjectSkillReference) : Prop :=
  env.readContent ruleSet reference.path ≠ .ok reference.content

variable {path content : String}

theorem differs_iff
    (read : env.readContent ruleSet path = .ok content)
    {reference : ProjectSkillReference}
    (named : reference.path = path) :
    env.Differs ruleSet reference ↔ content ≠ reference.content := by
  rw [Differs, named, read, ne_eq, Except.ok.injEq]

/-- What the loop carries once it has read files of some length in all. -/
structure Tally (env : SkillEnv) (ruleSet : LoadedRuleSet) (chars : Nat) (scan : ReferenceScan) :
    Prop where
  left : scan.referenceBudget = maxProjectReferenceChars - chars
  spent : (scan.references.map (·.content.length)).sum + scan.referenceBudget =
    maxProjectReferenceChars
  truncated : scan.truncated = true ↔ maxProjectReferenceChars ≤ chars
  differs : (∃ reference ∈ scan.references, env.Differs ruleSet reference) ↔
    maxProjectReferenceChars < chars

theorem Tally.start : env.Tally ruleSet 0 {} where
  left := rfl
  spent := rfl
  truncated := by decide
  differs := by simp

variable {chars : Nat} {scan : ReferenceScan}

theorem Tally.add
    (tally : env.Tally ruleSet chars scan)
    (read : env.readContent ruleSet path = .ok content) :
    env.Tally ruleSet (chars + content.length) (scan.add (env.keptReference path content)) := by
  obtain ⟨left, spent, truncated, differs⟩ := tally
  have length : (env.keptReference path content).content.length =
      min maxProjectReferenceChars content.length :=
    length_clip content _
  rcases Nat.lt_or_ge scan.referenceBudget (env.keptReference path content).content.length
    with long | fits
  · rw [add_of_lt long]
    rw [length] at long
    refine ⟨by simp only; omega, ?_, by simp only [true_iff]; omega, ?_⟩
    · simp only [List.map_append, List.sum_append, List.map_singleton, List.sum_singleton,
        length_clip, length]
      omega
    · simp only [List.mem_append, List.mem_singleton, or_and_right, exists_or, exists_eq_left,
        differs]
      have cut : env.Differs ruleSet { env.keptReference path content with
          content := clip (env.keptReference path content).content scan.referenceBudget } := by
        rw [differs_iff read rfl]
        intro same
        have lengths := congrArg String.length same
        rw [length_clip, length] at lengths
        omega
      simp only [cut, or_true, true_iff]
      omega
  · rw [add_of_le fits]
    rw [length] at fits
    refine ⟨by simp only [length]; omega, ?_, ?_, ?_⟩
    · simp only [List.map_append, List.sum_append, List.map_singleton, List.sum_singleton, length]
      omega
    · simp only [Bool.or_eq_true, truncated, decide_eq_true_eq, length]
      have source : (env.keptReference path content).sourceChars = content.length := rfl
      omega
    · simp only [List.mem_append, List.mem_singleton, or_and_right, exists_or, exists_eq_left,
        differs]
      have whole : env.Differs ruleSet (env.keptReference path content) ↔
          maxProjectReferenceChars < content.length := by
        rw [differs_iff read rfl, ← Nat.not_le, ← clip_eq_self_iff, eq_comm]
        rfl
      rw [whole]
      omega

theorem freshScan_cases
    (tally : env.Tally ruleSet chars scan)
    (paths : List String) :
    (∃ reason, env.freshScan ruleSet scan paths = .error reason ∧
        paths.mapM (env.readContent ruleSet) = .error reason) ∨
      ∃ final contents, env.freshScan ruleSet scan paths = .ok final ∧
        paths.mapM (env.readContent ruleSet) = .ok contents ∧
          env.Tally ruleSet (chars + (contents.map (·.length)).sum) final := by
  induction paths generalizing chars scan with
  | nil => exact Or.inr ⟨scan, [], rfl, rfl, tally⟩
  | cons path rest ih =>
      rw [freshScan, List.mapM_cons]
      cases read : env.readContent ruleSet path with
      | error reason => exact Or.inl ⟨reason, rfl, rfl⟩
      | ok content =>
          rcases ih (tally.add read) with
            ⟨reason, scanned, failed⟩ | ⟨final, contents, scanned, mapped, tallied⟩
          · refine Or.inl ⟨reason, scanned, ?_⟩
            rw [failed]
            rfl
          · refine Or.inr ⟨final, content :: contents, scanned, ?_, ?_⟩
            · rw [mapped]
              rfl
            · rw [List.map_cons, List.sum_cons, ← Nat.add_assoc]
              exact tallied

end SkillEnv

/-- The files of the references that a call selects fill the budget exactly. -/
def SkillEnv.FillsBudget (env : SkillEnv) (ruleSet : LoadedRuleSet) (request : SkillRequest) :
    Prop :=
  ∃ contents, (request.referencePaths ruleSet).mapM (env.readContent ruleSet) = .ok contents ∧
    (contents.map (·.length)).sum = maxProjectReferenceChars

theorem SkillEnv.effectiveSkill_budgeted
    (env : SkillEnv)
    (ruleSet : LoadedRuleSet)
    (request : SkillRequest) :
    let skill := env.effectiveSkill ruleSet request
      (env.freshScan ruleSet {} (request.referencePaths ruleSet))
    (skill.references.map (·.content.length)).sum ≤ maxProjectReferenceChars ∧
      ((skill.truncated = true ↔ ∃ reference ∈ skill.references, env.Differs ruleSet reference) ↔
        ¬ env.FillsBudget ruleSet request) := by
  have start : env.Tally ruleSet 0 {} := Tally.start
  rcases freshScan_cases start (request.referencePaths ruleSet) with
    ⟨reason, scanned, failed⟩ | ⟨final, contents, scanned, mapped, tally⟩
  · simp [scanned, failed, effectiveSkill, FillsBudget]
  · rw [Nat.zero_add] at tally
    have fills : env.FillsBudget ruleSet request ↔
        (contents.map (·.length)).sum = maxProjectReferenceChars := by
      simp [FillsBudget, mapped]
    have spent := tally.spent
    simp only [scanned, effectiveSkill, tally.truncated, tally.differs, fills]
    omega

theorem SkillEnv.cacheAgrees_nil
    (env : SkillEnv)
    (ruleSet : LoadedRuleSet) :
    env.CacheAgrees ruleSet [] :=
  fun _ _ found => by cases found

/-- A call returns what it returns in a fresh session, within the budget. The flag is right exactly
when the references do not fill the budget exactly. -/
theorem effective_skill_budgeted_iff
    (env : SkillEnv)
    (ruleSet : LoadedRuleSet)
    (calls : List SkillRequest)
    (request : SkillRequest) :
    let skill := (env.effective (env.after { ruleSet := ruleSet } calls) request).2
    skill = (env.effective { ruleSet := ruleSet } request).2 ∧
      (skill.references.map (·.content.length)).sum ≤ maxProjectReferenceChars ∧
      ((skill.truncated = true ↔ ∃ reference ∈ skill.references, env.Differs ruleSet reference) ↔
        ¬ env.FillsBudget ruleSet request) := by
  have fresh := @SkillEnv.effective_eq env { ruleSet := ruleSet } (env.cacheAgrees_nil ruleSet)
    request
  obtain ⟨sameRules, agrees⟩ := @SkillEnv.after_agrees env { ruleSet := ruleSet }
    (env.cacheAgrees_nil ruleSet) calls
  rw [← sameRules] at agrees
  have later := SkillEnv.effective_eq agrees request
  rw [sameRules] at later
  intro skill
  have same : skill = env.effectiveSkill ruleSet request
      (env.freshScan ruleSet {} (request.referencePaths ruleSet)) :=
    later
  rw [same, fresh]
  exact ⟨rfl, env.effectiveSkill_budgeted ruleSet request⟩

namespace SessionSample

/-- A file of some length. -/
def file (chars : Nat) : String :=
  String.ofList (List.replicate chars 'a')

theorem length_file
    (chars : Nat) :
    (file chars).length = chars := by
  rw [file, String.length_ofList, List.length_replicate]

/-- Half of what the budget allows. -/
def half : String :=
  file 10000

/-- The digest of the file. -/
def halfHash : String :=
  "27dd1f61b867b6a0f6e9d8a41c43231de52107e53ae424de8f847b821db4b711"

def env : SkillEnv where
  sha256 := fun text =>
    if text = half then halfHash
    else "51fd6fc359427b0e1920973e97b7c20da804d05c8202b356e2183b975cd5d14b"
  dumps := fun _ => "\x7b\"manifest_hash\":\"\",\"references\":[[\"references/one.md\",\"" ++ halfHash ++
    "\"],[\"references/two.md\",\"" ++ halfHash ++ "\"]],\"rules\":[\"r\"]\x7d"
  getFileContentAtRef := fun _ _ => .ok (some half)

/-- A rule with two references. -/
def ruleSet : LoadedRuleSet where
  project := "a/b"
  rules := [{
    id := "r"
    targets := ["review"]
    instruction := "Check."
    references := ["references/one.md", "references/two.md"] }]

end SessionSample

open SessionSample in
/-- Two references that fill the budget are reported as clipped, and nothing is clipped. -/
theorem full_budget_reported_as_clipped :
    let skill := (env.effective { ruleSet := ruleSet } { target := "review" }).2
    ¬ (skill.truncated = true ↔ ∃ reference ∈ skill.references, env.Differs ruleSet reference) := by
  have paths : SkillRequest.referencePaths { target := "review" } ruleSet =
      ["references/one.md", "references/two.md"] := by
    decide +kernel
  have fills : env.FillsBudget ruleSet { target := "review" } := by
    have read : ∀ path, env.readContent ruleSet path = .ok half := fun _ => rfl
    refine ⟨[half, half], ?_, ?_⟩
    · rw [paths, mapM_eq_ok fun path _ => read path]
      rfl
    · have length : half.length = 10000 := length_file 10000
      simp only [List.map_cons, List.map_nil, List.sum_cons, List.sum_nil, length]
      decide
  have fresh := @SkillEnv.effective_eq env { ruleSet := ruleSet } (env.cacheAgrees_nil ruleSet)
    { target := "review" }
  rw [fresh]
  exact fun agrees => (env.effectiveSkill_budgeted ruleSet _).2.mp agrees fills

end MrAgent
