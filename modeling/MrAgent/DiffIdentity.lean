import MrAgent.PushAttempt
import MrAgent.TextCut

namespace MrAgent

/-!
# The committed Diff and the validated Diff

`capture_worktree_snapshot` hashes the bytes of the Diff as Git writes them;
`build_push_attempt` hashes what is left of them after `_run_git` has decoded
and stripped the output. Git ends every Diff with a line feed, which the second
path removes: the two digests agree for the empty Diff only.
-/

/-! ## Bytes and characters -/

theorem toList_toByteArray (text : String) :
    text.toByteArray.data.toList = text.toList.flatMap String.utf8EncodeChar := by
  rw [← String.utf8Encode_toList, List.utf8Encode, List.toList_data_toByteArray]

theorem eq_newline_of_getLast
    {c : Char}
    (last : (String.utf8EncodeChar c).getLast? = some 10) :
    c = '\n' := by
  have tail : ∀ n : Nat, UInt8.ofNat (n % 64 + 128) ≠ 10 := by
    intro n same
    have value := congrArg UInt8.toNat same
    rw [UInt8.toNat_ofNat'] at value
    change (n % 64 + 128) % 2 ^ 8 = 10 at value
    omega
  unfold String.utf8EncodeChar at last
  dsimp only at last
  split at last
  · rename_i ascii
    simp only [List.getLast?_singleton, Option.some.injEq] at last
    have value := congrArg UInt8.toNat last
    rw [UInt8.toNat_ofNat'] at value
    change c.val.toNat % 2 ^ 8 = 10 at value
    apply Char.ext
    apply UInt32.toNat_inj.mp
    change c.val.toNat = 10
    omega
  · split at last
    · simp only [List.getLast?_cons_cons, List.getLast?_singleton, Option.some.injEq] at last
      exact absurd last (tail _)
    · split at last <;>
        · simp only [List.getLast?_cons_cons, List.getLast?_singleton, Option.some.injEq] at last
          exact absurd last (tail _)

variable {text : String}

theorem getLast_of_newline
    (last : text.toByteArray.data.toList.getLast? = some 10) :
    text.toList.getLast? = some '\n' := by
  rw [toList_toByteArray] at last
  rcases List.eq_nil_or_concat' text.toList with empty | ⟨init, c, split⟩
  · rw [empty] at last
    cases last
  · rw [split] at last ⊢
    rw [List.flatMap_append, List.flatMap_singleton] at last
    have encoded : String.utf8EncodeChar c ≠ [] := String.utf8EncodeChar_ne_nil
    rw [List.getLast?_append_of_ne_nil _ encoded] at last
    rw [eq_newline_of_getLast last, List.getLast?_concat]

theorem runGit_not_newline
    {output : ByteArray}
    (ran : runGit output = some text) :
    text.toByteArray.data.toList.getLast? ≠ some 10 := by
  intro last
  have newline := getLast_of_newline last
  unfold runGit at ran
  split at ran
  · cases ran
  · dsimp only at ran
    split at ran
    · cases ran
    · cases ran
      rw [String.toList_ofList] at newline
      have blank := isSpace_getLast_strip newline
      revert blank
      decide

theorem runGit_empty : runGit ByteArray.empty = some "" := by
  decide

/-! ## Worktrees -/

section Worktree

variable {Base Content : Type}

/--
Git, as far as both paths use it: what `rev-parse HEAD` prints, a SHA, and the
Diff of the whole worktree against `HEAD`, which ends with a line feed if it is
not empty.
-/
structure GitDiff (Base Content : Type) where
  revParse : Base → ByteArray
  diff : Base → Content → ByteArray
  revParse_text : ∀ base, ∃ sha, runGit (revParse base) = some sha
  diff_newline : ∀ base content,
    diff base content ≠ ByteArray.empty → (diff base content).data.toList.getLast? = some 10

/-- `capture_worktree_snapshot(...).diff_digest`. -/
def captureWorktreeDigest
    (env : DigestEnv)
    (git : GitDiff Base Content)
    (base : Base)
    (content : Content) : String :=
  env.digestDiff (git.diff base content)

/-- The attempt that `commit_and_push_tool` builds after it has staged everything. -/
def stagedAttempt
    (env : DigestEnv)
    (git : GitDiff Base Content)
    (taskId : String)
    (previousPushes : List ToolResult)
    (base : Base)
    (content : Content) : Option PushAttemptIdentity :=
  buildPushAttempt env taskId previousPushes (git.revParse base) (git.diff base content)

/--
Both digests agree, and the check passes exactly when the Diff is still the one
that was validated.
-/
structure Recognised
    (env : DigestEnv)
    (git : GitDiff Base Content)
    (base : Base)
    (content : Content) : Prop where
  sameDigest : ∀ taskId previousPushes,
    ∃ attempt,
      stagedAttempt env git taskId previousPushes base content = some attempt ∧
        attempt.diffDigest = captureWorktreeDigest env git base content
  unchanged : ∀ taskId previousPushes (native : NativeCommitDecision),
    native.allowed = true →
    native.validatedDiffDigest = captureWorktreeDigest env git base content →
    digestCheck (stagedAttempt env git taskId previousPushes base content) (some native) = .passed
  changed : ∀ taskId previousPushes (native : NativeCommitDecision) earlier,
    native.validatedDiffDigest = captureWorktreeDigest env git base earlier →
    git.diff base earlier ≠ git.diff base content →
    digestCheck (stagedAttempt env git taskId previousPushes base content) (some native) ≠ .passed

variable {base : Base} {previousPushes : List ToolResult} {attempt : PushAttemptIdentity}
variable {taskId : String}

theorem stagedAttempt_eq_some
    {env : DigestEnv}
    {git : GitDiff Base Content}
    {content : Content}
    (staged : stagedAttempt env git taskId previousPushes base content = some attempt) :
    ∃ text,
      runGit (git.diff base content) = some text ∧
        attempt.diffDigest = env.digestDiff text.toByteArray := by
  unfold stagedAttempt buildPushAttempt at staged
  split at staged
  · cases staged
  · split at staged
    · cases staged
    · rename_i text ran
      cases staged
      exact ⟨text, ran, rfl⟩

theorem stagedAttempt_digest_ne
    {env : DigestEnv}
    (injective : Function.Injective env.digestDiff)
    {git : GitDiff Base Content}
    {content earlier : Content}
    (staged : stagedAttempt env git taskId previousPushes base content = some attempt)
    (nonempty : git.diff base earlier ≠ ByteArray.empty) :
    attempt.diffDigest ≠ captureWorktreeDigest env git base earlier := by
  intro same
  obtain ⟨text, ran, digest⟩ := stagedAttempt_eq_some staged
  have bytes : text.toByteArray = git.diff base earlier := injective (digest.symm.trans same)
  have last := git.diff_newline base earlier nonempty
  rw [← bytes] at last
  exact runGit_not_newline ran last

theorem digestCheck_passed
    {attempt : Option PushAttemptIdentity}
    {native : NativeCommitDecision}
    (passed : digestCheck attempt (some native) = .passed) :
    ∃ built, attempt = some built ∧ built.diffDigest = native.validatedDiffDigest := by
  unfold digestCheck at passed
  split at passed
  · cases passed
  · contradiction
  · rename_i built other same
    cases same
    split at passed
    · cases passed
    · split at passed
      · cases passed
      · rename_i equal
        exact ⟨built, rfl, not_not.mp equal⟩

/-- The committed Diff is recognised exactly when there is nothing to commit. -/
theorem diff_recognised_iff
    {env : DigestEnv}
    (injective : Function.Injective env.digestDiff)
    (git : GitDiff Base Content)
    (base : Base)
    (content : Content) :
    Recognised env git base content ↔ git.diff base content = ByteArray.empty := by
  constructor
  · intro recognised
    by_contra nonempty
    obtain ⟨attempt, staged, same⟩ := recognised.sameDigest "" []
    exact stagedAttempt_digest_ne injective staged nonempty same
  · intro empty
    obtain ⟨sha, printed⟩ := git.revParse_text base
    have built : ∀ taskId previousPushes,
        ∃ attempt,
          stagedAttempt env git taskId previousPushes base content = some attempt ∧
            attempt.diffDigest = captureWorktreeDigest env git base content := by
      intro taskId previousPushes
      unfold stagedAttempt buildPushAttempt captureWorktreeDigest
      rw [printed, empty, runGit_empty]
      exact ⟨_, rfl, rfl⟩
    refine ⟨built, ?_, ?_⟩
    · intro taskId previousPushes native allowed validated
      obtain ⟨attempt, staged, same⟩ := built taskId previousPushes
      rw [staged]
      simp only [digestCheck, allowed, Bool.not_true, Bool.false_eq_true, if_false, same, validated,
        ne_eq, not_true_eq_false]
    · intro taskId previousPushes native earlier validated other passed
      obtain ⟨attempt, staged, same⟩ := digestCheck_passed passed
      have nonempty : git.diff base earlier ≠ ByteArray.empty := empty ▸ other
      exact stagedAttempt_digest_ne injective staged nonempty (same.trans validated)

end Worktree

namespace OneLine

/-- A digest that loses nothing: each byte becomes the character with its number. -/
def env : DigestEnv where
  digestDiff := fun bytes => String.ofList (bytes.data.toList.map fun byte => Char.ofNat byte.toNat)
  digest := id

theorem digest_injective : Function.Injective env.digestDiff := by
  have bytewise : Function.Injective fun byte : UInt8 => Char.ofNat byte.toNat := by
    intro first second same
    have valid : ∀ byte : UInt8, (Char.ofNat byte.toNat).toNat = byte.toNat := by
      intro byte
      have bound := byte.toNat_lt
      rw [Char.ofNat, dif_pos (Or.inl (by omega))]
      rfl
    apply UInt8.toNat_inj.mp
    have numbers := congrArg Char.toNat same
    dsimp only at numbers
    rwa [valid, valid] at numbers
  intro first second same
  have lists := List.map_injective_iff.mpr bytewise (String.ofList_injective same)
  exact ByteArray.ext (Array.toList_inj.mp lists)

/-- The Diff of a file whose only line has changed. -/
def changedDiff : ByteArray :=
  "diff --git a/f b/f\nindex 78..61 100644\n--- a/f\n+++ b/f\n@@ -1 +1 @@\n-x\n+a\n".toUTF8

/-- A repository with one file, changed or not. -/
def git : GitDiff Unit Bool where
  revParse := fun _ => "b\n".toUTF8
  diff := fun _ changed => if changed then changedDiff else ByteArray.empty
  revParse_text := fun _ => ⟨"b", by decide⟩
  diff_newline := by
    intro _ changed nonempty
    cases changed with
    | false =>
        exact absurd rfl nonempty
    | true =>
        decide

/-- The validation has approved the worktree with the changed line. -/
def approved : NativeCommitDecision where
  allowed := true
  validatedDiffDigest := captureWorktreeDigest env git () true
  validatedBaseSha := "b"

end OneLine

theorem clean_worktree_recognised :
    Recognised OneLine.env OneLine.git () false :=
  (diff_recognised_iff OneLine.digest_injective OneLine.git () false).mpr rfl

/-- One changed line, validated and not touched since, is refused for its digest. -/
theorem validated_diff_refused :
    Function.Injective OneLine.env.digestDiff ∧ ¬Recognised OneLine.env OneLine.git () true ∧
      digestCheck (stagedAttempt OneLine.env OneLine.git "t" [] () true) (some OneLine.approved) =
        .blocked "native_commit_digest_mismatch" := by
  have refused :
      digestCheck (stagedAttempt OneLine.env OneLine.git "t" [] () true) (some OneLine.approved) =
        .blocked "native_commit_digest_mismatch" := by
    decide +kernel
  refine ⟨OneLine.digest_injective, ?_, refused⟩
  intro recognised
  have passed := recognised.unchanged "t" [] OneLine.approved rfl rfl
  rw [refused] at passed
  cases passed

end MrAgent
