import Mathlib

namespace RedisCommands

/-!
# Typed keys and transactions of a Redis server

A key holds a value of one type, and a command for another type is refused and
leaves the value as it was. A transaction runs all its commands, refused ones
between the others, and reports the first refusal. Keys and the items stored
under them are parameters.
-/

/-- What a key holds. A sorted set lists its members from the highest score down. -/
inductive Value (Item : Type) where
  | number (count : Nat)
  | text (item : Item)
  | hash (fields : List (List Char × Item))
  | sortedSet (members : List (String × Nat))
  | set (members : List String)
deriving DecidableEq

/-- The types a command can ask for. -/
inductive Kind where
  | number
  | text
  | hash
  | sortedSet
  | set
deriving DecidableEq

/-- `WRONGTYPE`, or a text where a number is counted. -/
inductive Refusal where
  | wrongType
  | notANumber
deriving DecidableEq

variable {Key Name Item : Type}

/-- The type of a value. -/
def Value.kind : Value Item → Kind
  | .number _ => .number
  | .text _ => .text
  | .hash _ => .hash
  | .sortedSet _ => .sortedSet
  | .set _ => .set

/-- A database. -/
abbrev Store (Key Item : Type) := Key → Option (Value Item)

/-- `HSET` of one field. A new field comes last. -/
def hashSet
    (fields : List (List Char × Item))
    (field : List Char)
    (item : Item) :
    List (List Char × Item) :=
  if fields.any (·.1 == field) then
    fields.map fun entry => if entry.1 == field then (field, item) else entry
  else
    fields ++ [(field, item)]

/-- Members are read from the highest score down, equal scores from the last name down. -/
def ranksBefore (member other : String × Nat) : Prop :=
  other.2 < member.2 ∨ (other.2 = member.2 ∧ other.1 ≤ member.1)

instance : DecidableRel ranksBefore :=
  fun _ _ => inferInstanceAs (Decidable (_ ∨ (_ ∧ _)))

/-- `ZADD` of one member, which may have had another score. -/
def rank
    (members : List (String × Nat))
    (member : String)
    (score : Nat) :
    List (String × Nat) :=
  (members.filter (·.1 ≠ member)).orderedInsert ranksBefore (member, score)

/-- The writing commands of a transaction. -/
inductive Command (Key Item : Type) where
  | set (key : Key) (item : Item)
  | hset (key : Key) (mapping : List (List Char × Item))
  | hsetnx (key : Key) (field : List Char) (item : Item)
  | zadd (key : Key) (member : String) (score : Nat)
  | sadd (key : Key) (member : String)
  | srem (key : Key) (member : String)


namespace Command

/-- The one key a command touches. -/
def key : Command Key Item → Key
  | .set key _ => key
  | .hset key _ => key
  | .hsetnx key _ _ => key
  | .zadd key _ _ => key
  | .sadd key _ => key
  | .srem key _ => key

/-- The type a command leaves at its key. -/
def kind : Command Key Item → Kind
  | .set _ _ => .text
  | .hset _ _ => .hash
  | .hsetnx _ _ _ => .hash
  | .zadd _ _ _ => .sortedSet
  | .sadd _ _ => .set
  | .srem _ _ => .set

/-- What a command makes of the value at its key. `SET` replaces a value of any type. -/
def effect : Command Key Item → Option (Value Item) → Except Refusal (Option (Value Item))
  | .set _ item, _ => .ok (some (.text item))
  | .hset _ mapping, none =>
      .ok (some (.hash (mapping.foldl (fun fields entry => hashSet fields entry.1 entry.2) [])))
  | .hset _ mapping, some (.hash fields) =>
      .ok (some (.hash (mapping.foldl (fun fields entry => hashSet fields entry.1 entry.2) fields)))
  | .hsetnx _ field item, none => .ok (some (.hash [(field, item)]))
  | .hsetnx _ field item, some (.hash fields) =>
      .ok (some (.hash (if fields.any (·.1 == field) then fields else fields ++ [(field, item)])))
  | .zadd _ member score, none => .ok (some (.sortedSet [(member, score)]))
  | .zadd _ member score, some (.sortedSet members) =>
      .ok (some (.sortedSet (rank members member score)))
  | .sadd _ member, none => .ok (some (.set [member]))
  | .sadd _ member, some (.set members) =>
      .ok (some (.set (if member ∈ members then members else members ++ [member])))
  | .srem _ _, none => .ok none
  | .srem _ member, some (.set members) =>
      -- A set without members is no key.
      let remaining := members.filter (· ≠ member)
      .ok (if remaining = [] then none else some (.set remaining))
  | _, some _ => .error .wrongType

/-- The same command for keys of another type. -/
def rename (name : Key → Name) : Command Key Item → Command Name Item
  | .set key item => .set (name key) item
  | .hset key mapping => .hset (name key) mapping
  | .hsetnx key field item => .hsetnx (name key) field item
  | .zadd key member score => .zadd (name key) member score
  | .sadd key member => .sadd (name key) member
  | .srem key member => .srem (name key) member

@[simp]
theorem key_rename
    (name : Key → Name)
    (command : Command Key Item) :
    (command.rename name).key = name command.key := by
  cases command <;> rfl

@[simp]
theorem effect_rename
    (name : Key → Name)
    (command : Command Key Item)
    (value : Option (Value Item)) :
    (command.rename name).effect value = command.effect value := by
  cases command <;> cases value <;> first | rfl | (rename_i value; cases value <;> rfl)

/-- The value after a command, which is the old one when the command is refused. -/
def after (command : Command Key Item) (value : Option (Value Item)) : Option (Value Item) :=
  match command.effect value with
  | .ok changed => changed
  | .error _ => value

/-- The refusal of a command. -/
def refusal (command : Command Key Item) (value : Option (Value Item)) : Option Refusal :=
  match command.effect value with
  | .ok _ => none
  | .error refused => some refused

variable {command : Command Key Item} {value : Option (Value Item)}

theorem refusal_eq_none
    (typed : ∀ held, value = some held → held.kind = command.kind) :
    command.refusal value = none := by
  cases value with
  | none =>
      cases command <;> rfl
  | some held =>
      have kinds := typed held rfl
      cases command <;> cases held <;> first | rfl | cases kinds

theorem kind_after
    (typed : ∀ held, value = some held → held.kind = command.kind)
    {left : Value Item}
    (leaves : command.after value = some left) :
    left.kind = command.kind := by
  cases value with
  | none =>
      cases command <;> cases leaves <;> rfl
  | some held =>
      have kinds := typed held rfl
      cases command with
      | srem key member =>
          cases held with
          | set members =>
              simp only [after, effect] at leaves
              split at leaves
              · cases leaves
              · cases leaves
                rfl
          | _ => cases kinds
      | _ => cases held <;> first | (cases leaves; rfl) | cases kinds

end Command

variable [DecidableEq Key] [DecidableEq Name]

/-- `EXEC`: every command runs, and the first refusal is reported. -/
def execute :
    List (Command Key Item) → Store Key Item → Store Key Item × Option Refusal
  | [], store => (store, none)
  | command :: rest, store =>
      let done := execute rest
        (Function.update store command.key (command.after (store command.key)))
      (done.1, (command.refusal (store command.key)).or done.2)

theorem execute_apply
    (commands : List (Command Key Item))
    (store : Store Key Item)
    (key : Key) :
    (execute commands store).1 key =
      (commands.filter (·.key = key)).foldl (fun value command => command.after value)
        (store key) := by
  induction commands generalizing store with
  | nil =>
      rfl
  | cons command rest ih =>
      rw [execute, ih]
      by_cases own : command.key = key
      · rw [List.filter_cons_of_pos (by simpa using own), List.foldl_cons, ← own,
          Function.update_self]
      · rw [List.filter_cons_of_neg (by simpa using own), Function.update_of_ne (Ne.symm own)]

variable {commands : List (Command Key Item)}

theorem execute_of_forall_ne
    {key : Key}
    (others : ∀ command ∈ commands, command.key ≠ key)
    (store : Store Key Item) :
    (execute commands store).1 key = store key := by
  rw [execute_apply, List.filter_eq_nil_iff.mpr]
  · rfl
  · intro command member
    simpa using others command member

/-- Every value has the type of its key. -/
def Typed (schema : Key → Kind) (store : Store Key Item) : Prop :=
  ∀ key held, store key = some held → held.kind = schema key

variable {store : Store Key Item}

theorem Typed.update
    {schema : Key → Kind}
    (typed : Typed schema store)
    {key : Key}
    {value : Option (Value Item)}
    (fits : ∀ held, value = some held → held.kind = schema key) :
    Typed schema (Function.update store key value) := by
  intro other held holds
  by_cases same : other = key
  · rw [same, Function.update_self] at holds
    rw [same, fits held holds]
  · rw [Function.update_of_ne same] at holds
    exact typed other held holds

theorem execute_typed
    {schema : Key → Kind}
    (agree : ∀ command ∈ commands, command.kind = schema command.key)
    (typed : Typed schema store) :
    (execute commands store).2 = none ∧ Typed schema (execute commands store).1 := by
  induction commands generalizing store with
  | nil =>
      exact ⟨rfl, typed⟩
  | cons command rest ih =>
      have same := agree command List.mem_cons_self
      have own : ∀ held, store command.key = some held → held.kind = command.kind := by
        intro held holds
        rw [same]
        exact typed command.key held holds
      have updated : Typed schema
          (Function.update store command.key (command.after (store command.key))) :=
        typed.update fun held left => (Command.kind_after own left).trans same
      have tail := ih
        (fun next member => agree next (List.mem_cons_of_mem _ member)) updated
      rw [execute, Command.refusal_eq_none own, Option.none_or]
      exact tail

theorem execute_rename
    {name : Key → Name}
    (distinct : Function.Injective name)
    (commands : List (Command Key Item))
    (store : Store Name Item) :
    (fun key => (execute (commands.map (Command.rename name)) store).1 (name key)) =
        (execute commands (fun key => store (name key))).1 ∧
      (execute (commands.map (Command.rename name)) store).2 =
        (execute commands (fun key => store (name key))).2 := by
  induction commands generalizing store with
  | nil =>
      exact ⟨rfl, rfl⟩
  | cons command rest ih =>
      simp only [List.map_cons, execute, Command.key_rename, Command.after, Command.refusal,
        Command.effect_rename]
      have tail := ih
        (Function.update store (name command.key) (command.after (store (name command.key))))
      have moved : (fun key => Function.update store (name command.key)
            (command.after (store (name command.key))) (name key)) =
          Function.update (fun key => store (name key)) command.key
            (command.after (store (name command.key))) :=
        Function.update_comp_eq_of_injective store distinct _ _
      rw [moved] at tail
      exact ⟨tail.1, congrArg _ tail.2⟩

/-- `INCR`. -/
def incr (key : Key) (store : Store Key Item) : Except Refusal (Store Key Item × Nat) :=
  match store key with
  | none => .ok (Function.update store key (some (.number 1)), 1)
  | some (.number count) =>
      .ok (Function.update store key (some (.number (count + 1))), count + 1)
  | some (.text _) => .error .notANumber
  | some _ => .error .wrongType

theorem incr_rename
    {name : Key → Name}
    (distinct : Function.Injective name)
    {key : Key}
    {store : Store Name Item}
    {counted : Store Key Item × Nat}
    (counts : incr key (fun key => store (name key)) = .ok counted) :
    ∃ moved, incr (name key) store = .ok (moved, counted.2) ∧
      (fun key => moved (name key)) = counted.1 := by
  have update : ∀ value, (fun other => Function.update store (name key) value (name other)) =
      Function.update (fun other => store (name other)) key value :=
    fun value => Function.update_comp_eq_of_injective store distinct key value
  unfold incr at counts ⊢
  cases held : store (name key) with
  | none =>
      simp only [held, Except.ok.injEq] at counts
      subst counts
      exact ⟨_, rfl, update _⟩
  | some value =>
      cases value with
      | number count =>
          simp only [held, Except.ok.injEq] at counts
          subst counts
          exact ⟨_, rfl, update _⟩
      | _ =>
          simp only [held] at counts
          cases counts

/-- `GET`. A counter is read as its digits. -/
def get (store : Store Key Item) (key : Key) : Except Refusal (Option (Nat ⊕ Item)) :=
  match store key with
  | none => .ok none
  | some (.number count) => .ok (some (.inl count))
  | some (.text item) => .ok (some (.inr item))
  | some _ => .error .wrongType

/-- `HGETALL`. -/
def hgetall
    (store : Store Key Item)
    (key : Key) :
    Except Refusal (List (List Char × Item)) :=
  match store key with
  | none => .ok []
  | some (.hash fields) => .ok fields
  | some _ => .error .wrongType

/-- `HVALS`. -/
def hvals (store : Store Key Item) (key : Key) : Except Refusal (List Item) :=
  (hgetall store key).map (·.map Prod.snd)

/-- `ZREVRANGE key 0 -1`. -/
def zrevrange (store : Store Key Item) (key : Key) : Except Refusal (List String) :=
  match store key with
  | none => .ok []
  | some (.sortedSet members) => .ok (members.map Prod.fst)
  | some _ => .error .wrongType

/-- `SMEMBERS`. -/
def smembers (store : Store Key Item) (key : Key) : Except Refusal (List String) :=
  match store key with
  | none => .ok []
  | some (.set members) => .ok members
  | some _ => .error .wrongType

theorem rank_highest
    {members : List (String × Nat)}
    {score : Nat}
    (highest : ∀ entry ∈ members, entry.2 < score)
    (member : String) :
    rank members member score = (member, score) :: members.filter (·.1 ≠ member) := by
  unfold rank
  cases remaining : members.filter (·.1 ≠ member) with
  | nil =>
      rfl
  | cons first rest =>
      apply List.orderedInsert_cons_of_le
      have inMembers : first ∈ members := by
        apply List.mem_of_mem_filter (p := (·.1 ≠ member))
        rw [remaining]
        exact List.mem_cons_self
      exact Or.inl (highest first inMembers)

/-- The characters that a pattern does not read as themselves. -/
def wildcards : List Char :=
  ['*', '?', '[', '\\']

mutual

/-- `MATCH` of a pattern. -/
def globMatch : List Char → List Char → Bool
  | [], key => key.isEmpty
  | '*' :: rest, key => key.tails.any fun tail => globMatch rest tail
  | '?' :: _, [] => false
  | '?' :: rest, _ :: key => globMatch rest key
  | '[' :: _, [] => false
  | '[' :: '^' :: rest, c :: key => globClass true false c rest key
  | '[' :: rest, c :: key => globClass false false c rest key
  | '\\' :: escaped :: rest, c :: key => escaped == c && globMatch rest key
  | '\\' :: _ :: _, [] => false
  | _ :: _, [] => false
  | literal :: rest, c :: key => literal == c && globMatch rest key

/-- The rest of a bracket, after whose end the pattern goes on. -/
def globClass (negated found : Bool) (c : Char) : List Char → List Char → Bool
  | [], key => (found != negated) && key.isEmpty
  | ']' :: rest, key => (found != negated) && globMatch rest key
  | '\\' :: escaped :: rest, key => globClass negated (found || escaped == c) c rest key
  | first :: '-' :: last :: rest, key =>
      globClass negated
        (found || (min first last ≤ c && c ≤ max first last)) c rest key
  | listed :: rest, key => globClass negated (found || listed == c) c rest key

end

theorem globMatch_literal
    {literal : Char}
    (plain : literal ∉ wildcards)
    (rest key : List Char) :
    globMatch (literal :: rest) key =
      match key with
      | [] => false
      | c :: key => literal == c && globMatch rest key := by
  simp only [wildcards, List.mem_cons, List.not_mem_nil, or_false, not_or] at plain
  cases key with
  | nil =>
      unfold globMatch
      split <;> simp_all
  | cons c key =>
      rw [globMatch]
      all_goals simp_all

theorem globMatch_star
    {literal : List Char}
    (plain : ∀ c ∈ literal, c ∉ wildcards)
    (key : List Char) :
    globMatch (literal ++ ['*']) key = literal.isPrefixOf key := by
  induction literal generalizing key with
  | nil =>
      have last : [] ∈ key.tails := (List.mem_tails _ _).mpr List.nil_suffix
      simp only [List.nil_append, globMatch, List.isPrefixOf_nil_left, List.any_eq_true]
      exact ⟨[], last, rfl⟩
  | cons c rest ih =>
      rw [List.cons_append, globMatch_literal (plain c List.mem_cons_self)]
      cases key with
      | nil =>
          rfl
      | cons first key =>
          simp only [List.isPrefixOf_cons_cons]
          rw [ih fun next member => plain next (List.mem_cons_of_mem _ member)]

/-- `DEL` of the keys that a scan for a pattern finds. -/
def deleteMatching (pattern : List Char) (store : Store (List Char) Item) :
    Store (List Char) Item :=
  fun key => if globMatch pattern key then none else store key

end RedisCommands
