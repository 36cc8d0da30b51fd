import MrAgent.AdmissionFrame
import MrAgent.HashChain

namespace MrAgent

open TransitionSystem HashChain

/-!
# The repair commit manifest is a frozen-once hash chain

`ManifestStep` is the life of one stored manifest: it is opened by a first
accepted append, extended by later ones and frozen once. Every broker
operation takes each task's manifest along such a step. A chained manifest
stays chained along the steps, and the checks of `validate_static` hold of
every frozen chained manifest.
-/

/-- The facts `_validate_manifest_append_input` establishes about an entry. -/
structure AcceptedEntry (entry : RepairCommitEntry) : Prop where
  commit : fullSha entry.commitSha = true
  parent : fullSha entry.parentSha = true
  tree : fullSha entry.treeSha = true
  effect : entry.effectId ≠ ""
  marker : entry.taskMarker ≠ ""
  pushed : entry.pushedAt ≠ ""

/-- The facts `_validate_manifest_append_input` establishes about a whole call. -/
structure AcceptedAppend (args : AppendArgs) : Prop where
  entry : AcceptedEntry args.entry
  baseTree : fullSha args.baseTreeSha = true
  branch : args.sourceBranch ≠ ""
  actor : args.authorizedActorId ≠ ""

variable {args : AppendArgs}

theorem acceptedAppend_of_validate
    (accepted :
      validateManifestAppendInput args.entry args.baseTreeSha args.sourceBranch
        args.authorizedActorId = .ok ()) :
    AcceptedAppend args := by
  unfold validateManifestAppendInput at accepted
  dsimp only at accepted
  split at accepted
  · cases accepted
  rename_i identity
  split at accepted
  · cases accepted
  rename_i evidence
  have shas : [args.entry.commitSha, args.entry.parentSha, args.entry.treeSha,
      args.baseTreeSha].all fullSha = true := by
    simp only [Bool.or_eq_true, not_or, Bool.not_eq_true', Bool.not_eq_false] at identity
    exact identity.2
  simp only [List.all_cons, List.all_nil, Bool.and_true, Bool.and_eq_true] at shas
  simp only [List.mem_cons, List.not_mem_nil, or_false, not_or] at evidence
  obtain ⟨effect, marker, pushed, branch, actor⟩ := evidence
  exact ⟨⟨shas.1, shas.2.1, shas.2.2.1, Ne.symm effect, Ne.symm marker, Ne.symm pushed⟩,
    shas.2.2.2, Ne.symm branch, Ne.symm actor⟩

theorem validSha_of_fullSha
    {value : String}
    (full : fullSha value = true) :
    validSha value = true := by
  simp only [fullSha, Bool.and_eq_true, List.all_eq_true] at full
  simp only [validSha, Bool.and_eq_true, List.all_eq_true]
  refine ⟨full.1, ?_⟩
  intro digit member
  have listed : digit ∈ "0123456789abcdef".toList := of_decide_eq_true (full.2 digit member)
  have digits :
      "0123456789abcdef".toList.all
        (fun c => ('0' ≤ c && c ≤ '9') || ('a' ≤ c && c ≤ 'f')) = true := by
    rfl
  exact List.all_eq_true.mp digits digit listed

/-- The fields of a manifest that its first append fixes. -/
structure ManifestIdentity where
  repairTaskId : TaskId
  projectId : String
  mrIid : Nat
  sourceBranch : String
  baseCommitSha : String
  baseTreeSha : String
  authorizedActorId : String

namespace RepairCommitManifest

/-- The identity of a manifest. -/
def identity (manifest : RepairCommitManifest) : ManifestIdentity where
  repairTaskId := manifest.repairTaskId
  projectId := manifest.projectId
  mrIid := manifest.mrIid
  sourceBranch := manifest.sourceBranch
  baseCommitSha := manifest.baseCommitSha
  baseTreeSha := manifest.baseTreeSha
  authorizedActorId := manifest.authorizedActorId

/-- The entries form a numbered chain from the base commit. -/
def EntriesContinue
    (next : Nat)
    (parent : String)
    (entries : List RepairCommitEntry) : Prop :=
  Continues RepairCommitEntry.sequence RepairCommitEntry.parentSha RepairCommitEntry.commitSha
    next parent entries

/-- What every manifest built by accepted appends satisfies. -/
structure Chained (manifest : RepairCommitManifest) : Prop where
  schema : manifest.schemaVersion = 1
  project : manifest.projectId ≠ ""
  iid : manifest.mrIid ≠ 0
  branch : manifest.sourceBranch ≠ ""
  actor : manifest.authorizedActorId ≠ ""
  baseCommit : fullSha manifest.baseCommitSha = true
  baseTree : fullSha manifest.baseTreeSha = true
  chain : EntriesContinue 1 manifest.baseCommitSha manifest.entries
  distinct : (manifest.entries.map RepairCommitEntry.commitSha).Nodup
  entries : ∀ entry ∈ manifest.entries, AcceptedEntry entry
  stamped : manifest.frozen = true → manifest.frozenAt ≠ ""

theorem freshManifest_chained
    {args : AppendArgs}
    (envelope : TaskEnvelope)
    (mr : MrKey)
    (accepted : AcceptedAppend args) :
    (freshManifest envelope mr args).Chained where
  schema := rfl
  project := mr.projectNonempty
  iid := Nat.pos_iff_ne_zero.mp mr.iidPositive
  branch := accepted.branch
  actor := accepted.actor
  baseCommit := accepted.entry.parent
  baseTree := accepted.baseTree
  chain := trivial
  distinct := List.nodup_nil
  entries := by simp [freshManifest]
  stamped := by simp [freshManifest]

variable {manifest : RepairCommitManifest}

variable {entry : RepairCommitEntry}

theorem extend_stored
    {result : Option RepairCommitManifest}
    (stored : manifest.extend entry = .stored 1 result) :
    entry.sequence = manifest.entries.length + 1 ∧
      entry.parentSha = manifest.expectedParent ∧
      entry.commitSha ∉ manifest.entries.map RepairCommitEntry.commitSha ∧
      result = some { manifest with entries := manifest.entries ++ [entry] } := by
  unfold extend at stored
  split at stored
  · simp at stored
  split at stored
  · cases stored
  split at stored
  · cases stored
  split at stored
  · cases stored
  rename_i sequence parent distinct
  cases stored
  exact ⟨not_not.mp sequence, not_not.mp parent, distinct, rfl⟩

theorem expectedParent_eq_tip (manifest : RepairCommitManifest) :
    manifest.expectedParent =
      tip RepairCommitEntry.commitSha manifest.baseCommitSha manifest.entries := by
  rw [expectedParent, tip]
  cases manifest.entries.getLast? with
  | none =>
      rfl
  | some last =>
      rfl

theorem Chained.append
    (chained : manifest.Chained)
    (accepted : AcceptedEntry entry)
    (sequence : entry.sequence = manifest.entries.length + 1)
    (parent : entry.parentSha = manifest.expectedParent)
    (distinct : entry.commitSha ∉ manifest.entries.map RepairCommitEntry.commitSha) :
    Chained { manifest with entries := manifest.entries ++ [entry] } where
  schema := chained.schema
  project := chained.project
  iid := chained.iid
  branch := chained.branch
  actor := chained.actor
  baseCommit := chained.baseCommit
  baseTree := chained.baseTree
  chain := chained.chain.snoc (by omega) (parent.trans manifest.expectedParent_eq_tip)
  distinct := by
    rw [List.map_append, List.map_singleton, ← List.concat_eq_append]
    exact chained.distinct.concat distinct
  entries := by
    intro stored member
    rcases List.mem_append.mp member with earlier | last
    · exact chained.entries stored earlier
    · rw [List.mem_singleton.mp last]
      exact accepted
  stamped := chained.stamped

theorem Chained.freeze
    {frozenAt : String}
    (chained : manifest.Chained)
    (stamped : frozenAt ≠ "") :
    Chained { manifest with frozen := true, frozenAt := frozenAt } where
  schema := chained.schema
  project := chained.project
  iid := chained.iid
  branch := chained.branch
  actor := chained.actor
  baseCommit := chained.baseCommit
  baseTree := chained.baseTree
  chain := chained.chain
  distinct := chained.distinct
  entries := chained.entries
  stamped := fun _ => stamped

theorem validateEntries_of_chain
    {next : Nat}
    {seen : List String}
    {parent : String}
    {entries : List RepairCommitEntry}
    (chain : EntriesContinue next parent entries)
    (distinct : (entries.map RepairCommitEntry.commitSha).Nodup)
    (unseen : ∀ entry ∈ entries, entry.commitSha ∉ seen)
    (accepted : ∀ entry ∈ entries, AcceptedEntry entry) :
    validateEntries next seen parent entries = .ok () := by
  induction entries generalizing next seen parent with
  | nil =>
      rfl
  | cons entry rest ih =>
      obtain ⟨numbered, linked, continued⟩ := chain
      rw [List.map_cons, List.nodup_cons] at distinct
      have first := accepted entry (List.mem_cons_self ..)
      have later :
          validateEntries (next + 1) (entry.commitSha :: seen) entry.commitSha rest = .ok () := by
        refine ih continued distinct.2 ?_ ?_
        · intro other member
          rw [List.mem_cons, not_or]
          refine ⟨?_, unseen other (List.mem_cons_of_mem entry member)⟩
          intro same
          exact distinct.1 (same ▸ List.mem_map_of_mem member)
        · intro other member
          exact accepted other (List.mem_cons_of_mem entry member)
      subst numbered linked
      simp [validateEntries, unseen entry (List.mem_cons_self ..), later,
        validSha_of_fullSha first.commit, validSha_of_fullSha first.parent,
        validSha_of_fullSha first.tree, Ne.symm first.effect, Ne.symm first.marker,
        Ne.symm first.pushed]

theorem validateStatic_of_chained
    (chained : manifest.Chained)
    (nonempty : manifest.entries ≠ [])
    (frozen : manifest.frozen = true)
    (branch : validBranch manifest.sourceBranch = true) :
    manifest.validateStatic = .ok () := by
  have entries : validateEntries 1 [] manifest.baseCommitSha manifest.entries = .ok () :=
    validateEntries_of_chain chained.chain chained.distinct (by simp) chained.entries
  simp [validateStatic, chained.schema, Ne.symm manifest.repairTaskId.nonempty,
    Ne.symm chained.project, Ne.symm chained.branch, Ne.symm chained.actor, chained.iid, branch,
    validSha_of_fullSha chained.baseCommit, validSha_of_fullSha chained.baseTree, frozen,
    chained.stamped frozen, nonempty, entries]

end RepairCommitManifest

/-- What one broker operation can do to the stored manifest of a task. -/
inductive ManifestStep : Option RepairCommitManifest → Option RepairCommitManifest → Prop
  | same (stored : Option RepairCommitManifest) : ManifestStep stored stored
  | opened {envelope : TaskEnvelope} {mr : MrKey} {args : AppendArgs}
      {result : Option RepairCommitManifest}
      (accepted : AcceptedAppend args)
      (stored : (freshManifest envelope mr args).extend args.entry = .stored 1 result) :
      ManifestStep none result
  | appended {manifest : RepairCommitManifest} {args : AppendArgs}
      {result : Option RepairCommitManifest}
      (accepted : AcceptedAppend args)
      (unfrozen : manifest.frozen = false)
      (stored : manifest.extend args.entry = .stored 1 result) :
      ManifestStep (some manifest) result
  | froze {manifest : RepairCommitManifest} {frozenAt : String}
      (unfrozen : manifest.frozen = false)
      (stamped : frozenAt ≠ "") :
      ManifestStep (some manifest) (some { manifest with frozen := true, frozenAt := frozenAt })

namespace Broker

variable (s : Broker)

theorem appendReply_step
    {task : TaskId}
    {lease : Option MrLease}
    {args : AppendArgs}
    {result : Option RepairCommitManifest}
    (accepted : AcceptedAppend args)
    (reply : s.appendReply task lease args = .stored 1 result) :
    ManifestStep (s.tasks task).repairCommitManifest result := by
  unfold appendReply at reply
  dsimp only at reply
  split at reply
  · cases reply
  split at reply
  · cases reply
  cases payload : (s.tasks task).payload with
  | none =>
      simp [payload] at reply
  | some envelope =>
      simp only [payload] at reply
      split at reply
      · cases reply
      cases stored : (s.tasks task).repairCommitManifest with
      | none =>
          cases mr : envelope.mr with
          | none =>
              simp [stored, mr] at reply
          | some mr' =>
              simp only [stored, mr] at reply
              exact .opened accepted reply
      | some manifest =>
          simp only [stored] at reply
          split at reply
          · cases reply
          rename_i unfrozen
          cases mr : envelope.mr with
          | none =>
              simp [mr] at reply
          | some mr' =>
              simp only [mr] at reply
              split at reply
              · cases reply
              · exact .appended accepted (by simpa using unfrozen) reply

theorem appendRepairCommit_manifest
    (target : TaskId) (lease : Option MrLease) (args : AppendArgs) (now : Time)
    (task : TaskId) :
    ManifestStep (s.tasks task).repairCommitManifest
      ((s.appendRepairCommit target lease args now).1.tasks task).repairCommitManifest := by
  unfold appendRepairCommit
  cases accepted : validateManifestAppendInput args.entry args.baseTreeSha args.sourceBranch
      args.authorizedActorId with
  | error message =>
      exact .same _
  | ok value =>
      have accepted := acceptedAppend_of_validate accepted
      dsimp only
      unfold appendRepairCommitScript
      split
      · rename_i manifest reply
        by_cases same : task = target
        · subst task
          simpa using appendReply_step s accepted reply
        · simpa [same] using ManifestStep.same _
      · exact .same _

theorem freezeRepairCommitManifest_manifest
    (target : TaskId) (lease : Option MrLease) (frozenAt : String) (now : Time)
    (stamped : frozenAt ≠ "")
    (task : TaskId) :
    ManifestStep (s.tasks task).repairCommitManifest
      ((s.freezeRepairCommitManifest target lease frozenAt now).1.tasks
        task).repairCommitManifest := by
  unfold freezeRepairCommitManifest
  dsimp only
  split
  · exact .same _
  split
  · exact .same _
  cases stored : (s.tasks target).repairCommitManifest with
  | none =>
      exact .same _
  | some manifest =>
      dsimp only
      split
      · exact .same _
      · rename_i unfrozen
        by_cases same : task = target
        · subst task
          simpa [stored] using ManifestStep.froze (by simpa using unfrozen) stamped
        · simpa [same] using ManifestStep.same _

theorem step_manifestStep (op : Op) (task : TaskId) :
    ManifestStep (s.tasks task).repairCommitManifest
      ((s.step op).tasks task).repairCommitManifest := by
  by_cases manifestCall : ∃ manifestOp, op = .manifest manifestOp
  · obtain ⟨manifestOp, rfl⟩ := manifestCall
    cases manifestOp with
    | append target lease args now =>
        exact appendRepairCommit_manifest s target lease args now task
    | freeze target lease frozenAt now stamped =>
        exact freezeRepairCommitManifest_manifest s target lease frozenAt now stamped task
  · rw [step_manifest s op (fun manifestOp equal => manifestCall ⟨manifestOp, equal⟩) task]
    exact .same _

end Broker

/-- A stored manifest is chained and has an entry. -/
def SoundManifest (stored : Option RepairCommitManifest) : Prop :=
  ∀ manifest, stored = some manifest → manifest.Chained ∧ manifest.entries ≠ []

theorem ManifestStep.sound
    {before after : Option RepairCommitManifest}
    (step : ManifestStep before after)
    (sound : SoundManifest before) :
    SoundManifest after := by
  cases step with
  | same =>
      exact sound
  | @opened envelope mr args _ accepted stored =>
      obtain ⟨sequence, parent, distinct, rfl⟩ := RepairCommitManifest.extend_stored stored
      rintro manifest ⟨⟩
      have fresh := RepairCommitManifest.freshManifest_chained envelope mr accepted
      exact ⟨fresh.append accepted.entry sequence parent distinct, by simp⟩
  | appended accepted unfrozen stored =>
      obtain ⟨sequence, parent, distinct, rfl⟩ := RepairCommitManifest.extend_stored stored
      rintro manifest ⟨⟩
      have earlier := (sound _ rfl).1
      exact ⟨earlier.append accepted.entry sequence parent distinct, by simp⟩
  | froze unfrozen stamped =>
      rintro manifest ⟨⟩
      obtain ⟨chained, nonempty⟩ := sound _ rfl
      exact ⟨chained.freeze stamped, nonempty⟩

/--
A stored manifest stays stored with its identity and its entries, and a frozen
one does not change.
-/
def ManifestGrows (before after : Option RepairCommitManifest) : Prop :=
  ∀ manifest, before = some manifest →
    ∃ later, after = some later ∧ later.identity = manifest.identity ∧
      manifest.entries <+: later.entries ∧ (manifest.frozen = true → later = manifest)

namespace ManifestGrows

theorem refl (stored : Option RepairCommitManifest) : ManifestGrows stored stored :=
  fun manifest present =>
    ⟨manifest, present, rfl, List.prefix_refl manifest.entries, fun _ => rfl⟩

theorem trans
    {first middle last : Option RepairCommitManifest}
    (left : ManifestGrows first middle)
    (right : ManifestGrows middle last) :
    ManifestGrows first last := by
  intro manifest present
  obtain ⟨between, stored, identity, entries, frozen⟩ := left manifest present
  obtain ⟨later, laterStored, laterIdentity, laterEntries, laterFrozen⟩ := right between stored
  refine ⟨later, laterStored, laterIdentity.trans identity, entries.trans laterEntries, ?_⟩
  intro wasFrozen
  have same := frozen wasFrozen
  rw [← same]
  exact laterFrozen (same ▸ wasFrozen)

theorem of_step
    {before after : Option RepairCommitManifest}
    (step : ManifestStep before after) :
    ManifestGrows before after := by
  cases step with
  | same =>
      exact refl _
  | opened accepted stored =>
      rintro manifest ⟨⟩
  | appended accepted unfrozen stored =>
      obtain ⟨_, _, _, rfl⟩ := RepairCommitManifest.extend_stored stored
      rintro manifest ⟨⟩
      refine ⟨_, rfl, rfl, List.prefix_append .., ?_⟩
      simp [unfrozen]
  | froze unfrozen stamped =>
      rintro manifest ⟨⟩
      refine ⟨_, rfl, rfl, List.prefix_refl _, ?_⟩
      simp [unfrozen]

end ManifestGrows

variable {task : TaskId}

theorem Broker.appendRepairCommit_replay
    (s : Broker)
    {manifest : RepairCommitManifest}
    (stored : (s.tasks task).repairCommitManifest = some manifest)
    (replay : manifest.entries.getLast? = some args.entry)
    (lease : Option MrLease)
    (now : Time) :
    (s.appendRepairCommit task lease args now).1 = s := by
  have unstored : ∀ result, s.appendReply task lease args ≠ .stored 1 result := by
    intro result reply
    unfold Broker.appendReply at reply
    simp only [stored, RepairCommitManifest.extend, replay, if_true] at reply
    repeat' split at reply
    all_goals simp at reply
  unfold Broker.appendRepairCommit
  split
  · rfl
  · unfold Broker.appendRepairCommitScript
    split
    · rename_i reply
      exact absurd reply (unstored _)
    · rfl

variable {start final : Broker}

theorem reaches_soundManifest
    (unset : (start.tasks task).repairCommitManifest = none)
    (run : Reaches Broker.step (fun _ _ => True) start final) :
    SoundManifest (final.tasks task).repairCommitManifest := by
  refine Reaches.invariant
    (fun state : Broker => SoundManifest (state.tasks task).repairCommitManifest) ?_ run ?_
  · intro state op sound _
    exact (Broker.step_manifestStep state op task).sound sound
  · intro manifest present
    rw [unset] at present
    cases present

theorem reaches_manifestGrows
    (run : Reaches Broker.step (fun _ _ => True) start final)
    (task : TaskId) :
    ManifestGrows (start.tasks task).repairCommitManifest
      (final.tasks task).repairCommitManifest := by
  refine Reaches.relates
    (fun before after : Broker =>
      ManifestGrows (before.tasks task).repairCommitManifest
        (after.tasks task).repairCommitManifest) ?_ ?_ ?_ run
  · intro state
    exact ManifestGrows.refl _
  · intro first middle last left right
    exact left.trans right
  · intro state op _
    exact ManifestGrows.of_step (Broker.step_manifestStep state op task)

/-- The manifest of a task is a chain from the base commit without a repeated SHA. It keeps its
identity, once frozen it does not change, and it passes the static check. -/
theorem repair_manifest_frozen_hash_chain
    {start middle final : Broker}
    {task : TaskId}
    {manifest : RepairCommitManifest}
    (unset : (start.tasks task).repairCommitManifest = none)
    (earlier : Reaches Broker.step (fun _ _ => True) start middle)
    (later : Reaches Broker.step (fun _ _ => True) middle final)
    (stored : (middle.tasks task).repairCommitManifest = some manifest) :
    (∀ index (bound : index < manifest.entries.length),
        manifest.entries[index].sequence = index + 1) ∧
      (∀ bound : 0 < manifest.entries.length,
        manifest.entries[0].parentSha = manifest.baseCommitSha) ∧
      (∀ index (bound : index + 1 < manifest.entries.length),
        manifest.entries[index + 1].parentSha = manifest.entries[index].commitSha) ∧
      (manifest.entries.map RepairCommitEntry.commitSha).Nodup ∧
      (∃ manifest', (final.tasks task).repairCommitManifest = some manifest' ∧
        manifest'.identity = manifest.identity ∧
        (manifest.frozen = true → manifest' = manifest)) ∧
      (∀ lease args now, manifest.entries.getLast? = some args.entry →
        (middle.appendRepairCommit task lease args now).1 = middle) ∧
      (manifest.frozen = true → validBranch manifest.sourceBranch = true →
        manifest.validateStatic = .ok ()) := by
  obtain ⟨chained, nonempty⟩ := reaches_soundManifest unset earlier manifest stored
  have chain := chained.chain
  refine ⟨?_, ?_, ?_, chained.distinct, ?_, ?_, ?_⟩
  · intro index bound
    rw [chain.number_get index bound, Nat.add_comm]
  · intro bound
    exact chain.parent_first bound
  · intro index bound
    exact chain.parent_get index bound
  · obtain ⟨manifest', present, identity, _, frozen⟩ :=
      reaches_manifestGrows later task manifest stored
    exact ⟨manifest', present, identity, frozen⟩
  · intro lease args now replay
    exact middle.appendRepairCommit_replay stored replay lease now
  · intro frozen branch
    exact RepairCommitManifest.validateStatic_of_chained chained nonempty frozen branch

/--
A repair of two commits: the task is admitted, appends both commits and freezes
its manifest, which then passes the static check.
-/
theorem repair_manifest_two_commits :
    let task : TaskId := ⟨"repair", by decide⟩
    let base := "0000000000000000000000000000000000000000"
    let first := "1111111111111111111111111111111111111111"
    let second := "2222222222222222222222222222222222222222"
    let entry := fun (sequence : Nat) (commit parent : String) =>
      RepairCommitEntry.mk sequence commit parent base "effect" "marker" "today"
    let append := fun entry : RepairCommitEntry => AppendArgs.mk entry base "fix" "author"
    let admitted := Broker.empty.step
      (.admission (.enqueue ⟨Sample.envelope task .prCommand "/triage" "key", true⟩))
    let frozen :=
      ((admitted.step (.manifest (.append task none (append (entry 1 first base)) 2))).step
        (.manifest (.append task none (append (entry 2 second first)) 3))).step
          (.manifest (.freeze task none "today" 4 (by decide)))
    let manifest : RepairCommitManifest :=
      { repairTaskId := task
        projectId := "group/project"
        mrIid := 7
        sourceBranch := "fix"
        baseCommitSha := base
        baseTreeSha := base
        authorizedActorId := "author"
        entries := [entry 1 first base, entry 2 second first]
        frozen := true
        frozenAt := "today" }
    (frozen.tasks task).repairCommitManifest = some manifest ∧
      manifest.validateStatic = .ok () := by
  intro task base first second entry append admitted frozen manifest
  have run : Reaches Broker.step (fun _ _ => True) admitted frozen :=
    (((Reaches.refl _).snoc _ trivial).snoc _ trivial).snoc _ trivial
  have stored : (frozen.tasks task).repairCommitManifest = some manifest := by
    decide +kernel
  refine ⟨stored, ?_⟩
  exact (repair_manifest_frozen_hash_chain (by decide +kernel) run (Reaches.refl frozen)
    stored).2.2.2.2.2.2 rfl (by decide +kernel)

end MrAgent
