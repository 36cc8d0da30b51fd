import MrAgent.CheckpointStore
import MrAgent.SeparatedText

namespace MrAgent

open RedisCommands SeparatedText

/-!
# The key families of the checkpoint store

Every key is the prefix and some parts with a colon before each. An encoded part
has no colon, so the parts can be read off a key, and with them its family. The
families of a namespace would overlap in one place only: the key of a checkpoint
called `index` or `sequence`.
-/

/-- A checkpoint id whose key is the key of no other family. -/
@[ext]
structure KeyId where
  text : String
  notIndex : text ≠ "index"
  notSequence : text ≠ "sequence"
deriving DecidableEq

/-- The keys of the saver, by family. -/
inductive SaverKey where
  | threads
  | namespaces (threadId : String)
  | index (threadId checkpointNs : String)
  | sequence (threadId checkpointNs : String)
  | checkpoint (threadId checkpointNs : String) (checkpointId : KeyId)
  | writes (threadId checkpointNs checkpointId : String)
  | blob (threadId checkpointNs channel : String) (version : Int)
deriving DecidableEq

namespace SaverKey

/-- The text of a key. -/
def text : SaverKey → List Char
  | threads => threadsKey
  | namespaces threadId => namespacesKey threadId
  | index threadId checkpointNs => indexKey threadId checkpointNs
  | sequence threadId checkpointNs => sequenceKey threadId checkpointNs
  | checkpoint threadId checkpointNs checkpointId =>
      checkpointKey threadId checkpointNs checkpointId.text
  | writes threadId checkpointNs checkpointId => writesKey threadId checkpointNs checkpointId
  | blob threadId checkpointNs channel version =>
      blobKey threadId checkpointNs channel version

/-- The parts of a key after the prefix. -/
def parts : SaverKey → List (List Char)
  | threads => ["threads".toList]
  | namespaces threadId => [quote threadId, "namespaces".toList]
  | index threadId checkpointNs => [quote threadId, quote checkpointNs, "index".toList]
  | sequence threadId checkpointNs => [quote threadId, quote checkpointNs, "sequence".toList]
  | checkpoint threadId checkpointNs checkpointId =>
      [quote threadId, quote checkpointNs, quote checkpointId.text]
  | writes threadId checkpointNs checkpointId =>
      [quote threadId, quote checkpointNs, quote checkpointId, "writes".toList]
  | blob threadId checkpointNs channel version =>
      [quote threadId, quote checkpointNs, "blob".toList, quote channel,
        quote (toString version)]

/-- The thread whose data a key holds. -/
def thread? : SaverKey → Option String
  | threads => none
  | namespaces threadId => some threadId
  | index threadId _ => some threadId
  | sequence threadId _ => some threadId
  | checkpoint threadId _ _ => some threadId
  | writes threadId _ _ => some threadId
  | blob threadId _ _ _ => some threadId

/-- The type of the values of a family. -/
def kind : SaverKey → Kind
  | threads => .set
  | namespaces _ => .set
  | index _ _ => .sortedSet
  | sequence _ _ => .number
  | checkpoint _ _ _ => .hash
  | writes _ _ _ => .hash
  | blob _ _ _ _ => .text

theorem quote_index :
    quote "index" = "index".toList := by
  decide

theorem quote_sequence :
    quote "sequence" = "sequence".toList := by
  decide

variable (key : SaverKey)

theorem text_eq_joined :
    key.text = keyPrefix ++ joined ':' key.parts := by
  cases key <;>
    simp [text, parts, joined, threadsKey, namespacesKey, indexKey, sequenceKey, checkpointKey,
      writesKey, blobKey, baseKey]

theorem colon_notMem_parts :
    ∀ part ∈ key.parts, ':' ∉ part := by
  cases key <;> simp [parts]

variable (checkpointId : KeyId)

theorem quote_keyId_ne_index :
    quote checkpointId.text ≠ "index".toList := by
  rw [← quote_index, Ne, quote_inj]
  exact checkpointId.notIndex

theorem quote_keyId_ne_sequence :
    quote checkpointId.text ≠ "sequence".toList := by
  rw [← quote_sequence, Ne, quote_inj]
  exact checkpointId.notSequence

theorem index_ne_sequence :
    "index".toList ≠ "sequence".toList := by
  decide

theorem parts_injective :
    Function.Injective parts := by
  intro key other same
  cases key <;> cases other <;>
    simp only [parts, List.cons.injEq, quote_inj, toString_int_inj, and_true, true_and,
      reduceCtorEq, and_false, quote_keyId_ne_index, quote_keyId_ne_sequence,
      (quote_keyId_ne_index _).symm, (quote_keyId_ne_sequence _).symm, index_ne_sequence,
      index_ne_sequence.symm, ← KeyId.ext_iff] at same
  case threads.threads => rfl
  all_goals simp only [same]

theorem text_injective :
    Function.Injective text := by
  intro key other same
  rw [text_eq_joined, text_eq_joined, List.append_cancel_left_eq,
    joined_inj key.colon_notMem_parts other.colon_notMem_parts] at same
  exact parts_injective same

end SaverKey

/-- What the keys of a thread start with. -/
def threadPrefix (threadId : String) : List Char :=
  keyPrefix ++ ':' :: quote threadId ++ [':']

namespace SaverKey

theorem parts_of_thread
    {key : SaverKey}
    {threadId : String}
    (owned : key.thread? = some threadId) :
    ∃ next rest, key.parts = quote threadId :: next :: rest := by
  cases key <;> cases owned <;> exact ⟨_, _, rfl⟩

theorem threadPrefix_prefix_iff
    (threadId : String)
    (key : SaverKey) :
    threadPrefix threadId <+: key.text ↔ key.thread? = some threadId := by
  rw [text_eq_joined, threadPrefix, List.append_assoc, List.prefix_append_right_inj]
  cases owned : key.thread? with
  | none =>
      have same : key = .threads := by
        cases key <;> first | rfl | cases owned
      subst same
      constructor
      · rintro ⟨rest, whole⟩
        have colon : ':' ∈ "threads".toList := by
          have tail : quote threadId ++ ':' :: rest = "threads".toList := by
            simpa [joined, parts] using whole
          rw [← tail]
          simp
        exact absurd colon (by decide)
      · rintro ⟨⟩
  | some owner =>
      obtain ⟨next, rest, split⟩ := parts_of_thread owned
      have whole : joined ':' key.parts =
          ':' :: (quote owner ++ ':' :: (next ++ joined ':' rest)) := by
        rw [split]
        simp [joined]
      rw [whole]
      constructor
      · rintro ⟨tail, same⟩
        have split := (append_cons_inj (colon_notMem_quote threadId)
          (colon_notMem_quote owner)).mp (by simpa using same)
        rw [quote_inj.mp split.1]
      · rintro ⟨⟩
        exact ⟨next ++ joined ':' rest, by simp⟩

end SaverKey

theorem globMatch_thread
    (threadId : String)
    (key : List Char) :
    globMatch (keyPrefix ++ ':' :: quote threadId ++ ":*".toList) key =
      (threadPrefix threadId).isPrefixOf key := by
  have split : keyPrefix ++ ':' :: quote threadId ++ ":*".toList =
      threadPrefix threadId ++ ['*'] := by
    simp [threadPrefix]
  rw [split]
  apply globMatch_star
  intro c member
  simp only [threadPrefix, List.mem_append, List.mem_cons, List.not_mem_nil, or_false] at member
  rcases member with (fixed | colon | quoted) | colon
  · revert c
    decide
  · subst colon
    decide
  · have safe := quotedChar_of_mem_quote quoted
    intro wild
    revert safe
    simp only [wildcards, List.mem_cons, List.not_mem_nil, or_false] at wild
    rcases wild with rfl | rfl | rfl | rfl <;> decide
  · subst colon
    decide

end MrAgent
