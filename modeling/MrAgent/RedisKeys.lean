import MrAgent.SeparatedText
import MrAgent.UnquotedText
import MrAgent.WrittenLines

namespace MrAgent

/-!
# The Redis keys of a merge request

Every key of a merge request is the prefix of the service, `mr`, the encoded
project, the iid and a name. The broker lists the `triage-active` keys of all
merge requests and reads the merge request off each.
-/

/-- The blanks that `int` skips. -/
def isIntSpace (c : Char) : Bool :=
  isSpace c && !(28 ≤ c.toNat && c.toNat ≤ 31)

/-- The most digits that `int` reads and `str` writes. -/
def maxStrDigits : Nat :=
  4300

namespace DigitEnv

variable (env : DigitEnv)

/-- Digits, which single underscores may part. -/
def readDigits (text : List Char) : Option Nat :=
  let groups := text.splitOn '_'
  let digits := groups.flatten
  if groups.all (fun group => group ≠ []) && digits.all (fun c => (env.digit c).isSome) &&
      digits.length ≤ maxStrDigits then
    some (env.number digits)
  else none

/-- `int` of a text. -/
def int (text : List Char) : Option Int :=
  match ((text.dropWhile isIntSpace).reverse.dropWhile isIntSpace).reverse with
  | '-' :: digits => (env.readDigits digits).map fun value => -(value : Int)
  | '+' :: digits => (env.readDigits digits).map Nat.cast
  | digits => (env.readDigits digits).map Nat.cast

end DigitEnv

/-- `MrKey(project_id, iid)`; it refuses an empty project and an iid that is not positive. -/
def MrKey.make (projectId : String) (iid : Int) : Option MrKey :=
  if nonempty : projectId = "" then none
  else if positive : iid ≤ 0 then none
  else some ⟨projectId, iid.toNat, nonempty, by omega⟩

/-- `str.rsplit(separator, 1)` when there is a separator. -/
def rsplitOnce (separator : Char) (text : List Char) : Option (List Char × List Char) :=
  let last := (text.reverse.takeWhile (· ≠ separator)).reverse
  if last.length = text.length then none
  else some (text.take (text.length - last.length - 1), last)

/-- `RedisKeys` -/
structure RedisKeys where
  keyPrefix : List Char

namespace RedisKeys

variable (keys : RedisKeys)

/-- A key of a merge request; `str` refuses an iid of too many digits. -/
def mrKey (name : String) (mr : MrKey) : Option (List Char) :=
  if (toString mr.iid).length ≤ maxStrDigits then
    some (keys.keyPrefix ++ ":mr:".toList ++ mr.redisId.toList ++ ':' :: name.toList)
  else none

def mrLease : MrKey → Option (List Char) := keys.mrKey "lease"

def mrFence : MrKey → Option (List Char) := keys.mrKey "fence"

def mrTasks : MrKey → Option (List Char) := keys.mrKey "tasks"

def mrTriageActive : MrKey → Option (List Char) := keys.mrKey "triage-active"

def mrPausedAuto : MrKey → Option (List Char) := keys.mrKey "paused-auto"

def mrLatestRepairCard : MrKey → Option (List Char) := keys.mrKey "latest-repair-card"

def mrLatestRepairPipelineId : MrKey → Option (List Char) :=
  keys.mrKey "latest-repair-pipeline-id"

def fixingNotice : MrKey → Option (List Char) := keys.mrKey "fixing-notice"

/-- The keys that belong to one merge request. -/
def perMr : List (MrKey → Option (List Char)) :=
  [keys.mrLease, keys.mrFence, keys.mrTasks, keys.mrTriageActive, keys.mrPausedAuto,
    keys.mrLatestRepairCard, keys.mrLatestRepairPipelineId, keys.fixingNotice]

/-- `RedisKeys.parse_triage_gate` -/
def parseTriageGate (env : DigitEnv) (key : List Char) : Option MrKey :=
  let start := keys.keyPrefix ++ ":mr:".toList
  let suffix := ":triage-active".toList
  if !start.isPrefixOf key || !suffix.isSuffixOf key then none
  else do
    let identity := (key.take (key.length - suffix.length)).drop start.length
    let (encodedProject, rawIid) ← rsplitOnce ':' identity
    MrKey.make (String.ofList (unquote encodedProject)) (← env.int rawIid)

end RedisKeys

/-! ## Reading a key back -/

theorem byteArray_toList
    (bytes : ByteArray) :
    bytes.toList = bytes.data.toList := by
  have loop : ∀ (count i : Nat) (read : List UInt8), bytes.size - i = count →
      ByteArray.toList.loop bytes i read = read.reverse ++ bytes.data.toList.drop i := by
    intro count
    induction count with
    | zero =>
        intro i read done
        rw [ByteArray.toList.loop, if_neg (by omega), List.drop_eq_nil_of_le, List.append_nil]
        change bytes.size ≤ i
        omega
    | succ count ih =>
        intro i read more
        have inside : i < bytes.data.toList.length := by
          change i < bytes.size
          omega
        rw [ByteArray.toList.loop, if_pos (by omega), ih (i + 1) _ (by omega),
          List.drop_eq_getElem_cons inside, List.reverse_cons, List.append_assoc]
        have read : bytes.get! i = bytes.data.toList[i] := by
          change bytes.data[i]! = _
          rw [getElem!_pos bytes.data i inside, Array.getElem_toList]
        rw [read, List.singleton_append]
  exact loop _ 0 [] rfl

variable {number : Nat}

theorem notMem_toDigits
    {c : Char}
    (other : c.isDigit = false) :
    c ∉ Nat.toDigits 10 number := by
  intro member
  rw [Nat.isDigit_of_mem_toDigits (by decide) (by decide) member] at other
  cases other

variable (mr : MrKey)

theorem redisId_toList :
    mr.redisId.toList = quote mr.projectId ++ ':' :: Nat.toDigits 10 mr.iid := by
  have digits : (toString mr.iid).toList = Nat.toDigits 10 mr.iid := Nat.toList_repr
  rw [MrKey.redisId, String.toList_append, String.toList_append, String.toList_ofList, digits,
    byteArray_toList, List.append_assoc]
  rfl

theorem rsplitOnce_append
    {separator : Char}
    {last : List Char}
    (clean : separator ∉ last)
    (first : List Char) :
    rsplitOnce separator (first ++ separator :: last) = some (first, last) := by
  have read : ((first ++ separator :: last).reverse.takeWhile (· ≠ separator)).reverse = last := by
    rw [List.reverse_append, List.reverse_cons, List.append_assoc, List.takeWhile_append_of_pos,
      List.singleton_append, List.takeWhile_cons_of_neg (by simp), List.append_nil,
      List.reverse_reverse]
    intro c member
    refine decide_eq_true ?_
    rintro rfl
    exact clean (List.mem_reverse.mp member)
  have length : (first ++ separator :: last).length - last.length - 1 = first.length := by
    simp
    omega
  unfold rsplitOnce
  simp only [read, length, List.take_left]
  rw [if_neg]
  simp
  omega

theorem between_append
    (start middle final : List Char) :
    ((start ++ middle ++ final).take ((start ++ middle ++ final).length - final.length)).drop
      start.length = middle := by
  rw [List.length_append, Nat.add_sub_cancel, List.take_left, List.drop_left]

variable (env : DigitEnv)

theorem readDigits_toDigits
    (short : (Nat.toDigits 10 number).length ≤ maxStrDigits) :
    env.readDigits (Nat.toDigits 10 number) = some number := by
  have plain : ∀ c ∈ Nat.toDigits 10 number, c.isDigit = true := fun c member =>
    Nat.isDigit_of_mem_toDigits (by decide) (by decide) member
  have whole : (Nat.toDigits 10 number).splitOn '_' = [Nat.toDigits 10 number] := by
    exact List.splitOn_eq_singleton (notMem_toDigits (by decide))
  unfold DigitEnv.readDigits
  rw [whole]
  simp only [List.flatten_cons, List.flatten_nil, List.append_nil, List.all_cons, List.all_nil,
    env.number_toDigits, short, decide_true, Bool.and_true]
  rw [if_pos]
  rw [Bool.and_eq_true]
  refine ⟨decide_eq_true Nat.toDigits_ne_nil, List.all_eq_true.mpr ?_⟩
  intro c member
  rw [env.digit_of_isDigit (plain c member)]
  rfl

theorem int_toDigits
    (short : (Nat.toDigits 10 number).length ≤ maxStrDigits) :
    env.int (Nat.toDigits 10 number) = some (number : Int) := by
  have plain : ∀ c ∈ Nat.toDigits 10 number, c.isDigit = true := fun c member =>
    Nat.isDigit_of_mem_toDigits (by decide) (by decide) member
  have kept : ∀ text : List Char, (∀ c ∈ text, c.isDigit = true) →
      text.dropWhile isIntSpace = text := by
    intro text digits
    cases text with
    | nil => rfl
    | cons c rest =>
        refine List.dropWhile_cons_of_neg ?_
        rw [isIntSpace, isSpace_of_isDigit (digits c List.mem_cons_self), Bool.false_and]
        exact Bool.false_ne_true
  unfold DigitEnv.int
  rw [kept _ plain, kept _ fun c member => plain c (List.mem_reverse.mp member),
    List.reverse_reverse]
  split
  · next same =>
      exact absurd (same ▸ List.mem_cons_self) (notMem_toDigits (c := '-') (by decide))
  · next same =>
      exact absurd (same ▸ List.mem_cons_self) (notMem_toDigits (c := '+') (by decide))
  · rw [readDigits_toDigits env short]
    rfl

theorem make_self :
    MrKey.make mr.projectId mr.iid = some mr := by
  have positive : ¬ (mr.iid : Int) ≤ 0 := by
    have := mr.iidPositive
    omega
  rw [MrKey.make, dif_neg mr.projectNonempty, dif_neg positive]
  rfl

namespace RedisKeys

variable {keys : RedisKeys}

variable {key : List Char}

variable {mr : MrKey}

theorem mrKey_eq_some
    {name : String}
    (built : keys.mrKey name mr = some key) :
    (Nat.toDigits 10 mr.iid).length ≤ maxStrDigits ∧
      key = (keys.keyPrefix ++ ":mr:".toList) ++
        (quote mr.projectId ++ ':' :: (Nat.toDigits 10 mr.iid ++ ':' :: name.toList)) := by
  unfold mrKey at built
  split at built
  · next short =>
      rw [redisId_toList] at built
      have digits : (toString mr.iid).toList = Nat.toDigits 10 mr.iid := Nat.toList_repr
      rw [← String.length_toList, digits] at short
      refine ⟨short, (Option.some.inj built).symm.trans ?_⟩
      rw [List.append_assoc (keys.keyPrefix ++ _), List.append_assoc (quote _), List.cons_append]
  · cases built

theorem parseTriageGate_mrTriageActive
    (env : DigitEnv)
    (built : keys.mrTriageActive mr = some key) :
    keys.parseTriageGate env key = some mr := by
  obtain ⟨short, rfl⟩ := mrKey_eq_some built
  have whole : (keys.keyPrefix ++ ":mr:".toList) ++
      (quote mr.projectId ++ ':' :: (Nat.toDigits 10 mr.iid ++ ':' :: "triage-active".toList)) =
      (keys.keyPrefix ++ ":mr:".toList) ++ (quote mr.projectId ++ ':' :: Nat.toDigits 10 mr.iid) ++
        ":triage-active".toList := by
    rw [List.append_assoc (keys.keyPrefix ++ _), List.append_assoc (quote _), List.cons_append]
    rfl
  rw [whole, parseTriageGate, if_neg]
  simp only [between_append]
  rw [rsplitOnce_append (notMem_toDigits (by decide))]
  · simp only [Option.bind_eq_bind, Option.bind_some, int_toDigits env short, unquote_quote,
      String.ofList_toList, make_self]
  · rw [List.isPrefixOf_iff_prefix.mpr ⟨_, (List.append_assoc ..).symm⟩,
      List.isSuffixOf_iff_suffix.mpr (List.suffix_append _ _)]
    decide

theorem mrKey_inj
    {name other : String}
    {mr second : MrKey}
    (built : keys.mrKey name mr = some key)
    (again : keys.mrKey other second = some key) :
    mr = second := by
  obtain ⟨_, rfl⟩ := mrKey_eq_some built
  obtain ⟨_, same⟩ := mrKey_eq_some again
  rw [List.append_cancel_left_eq,
    SeparatedText.append_cons_inj (colon_notMem_quote _) (colon_notMem_quote _),
    SeparatedText.append_cons_inj (notMem_toDigits (by decide)) (notMem_toDigits (by decide))]
    at same
  obtain ⟨project, iid, _⟩ := same
  cases mr
  cases second
  cases quote_inj.mp project
  cases toDigits_ten_inj iid
  rfl

/--
The key of a gate gives the merge request back, and no two merge requests
share a key, whatever their families.
-/
theorem mr_keys_tell_requests_apart
    (env : DigitEnv)
    (keys : RedisKeys) :
    (∀ mr key, keys.mrTriageActive mr = some key → keys.parseTriageGate env key = some mr) ∧
      ∀ family ∈ keys.perMr, ∀ other ∈ keys.perMr, ∀ mr second key,
        family mr = some key → other second = some key → mr = second := by
  refine ⟨fun mr key built => parseTriageGate_mrTriageActive env built, ?_⟩
  have named : ∀ family ∈ keys.perMr, ∃ name, family = keys.mrKey name := by
    intro family member
    simp only [perMr, List.mem_cons, List.not_mem_nil, or_false] at member
    rcases member with rfl | rfl | rfl | rfl | rfl | rfl | rfl | rfl <;> exact ⟨_, rfl⟩
  intro family member other otherMember mr second key built again
  obtain ⟨name, rfl⟩ := named family member
  obtain ⟨otherName, rfl⟩ := named other otherMember
  exact mrKey_inj built again

theorem project_with_colon_is_read_back :
    (RedisKeys.mk "pr-agent".toList).parseTriageGate ⟨fun _ => none⟩
      "pr-agent:mr:a%3Ab:7:triage-active".toList =
        some ⟨"a:b", 7, by decide, by decide⟩ :=
  (mr_keys_tell_requests_apart _ _).1 _ _ (by decide +kernel)

end RedisKeys

end MrAgent
