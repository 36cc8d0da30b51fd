import MrAgent.AdmissionFrame

namespace MrAgent

open TransitionSystem

/-!
# The effect ledger

An external effect is recorded under a key that starts with its task's id.
`CLAIM_EFFECT_LUA` opens the record, `COMPLETE_EFFECT_LUA` closes it with a
result, and one field of the task hash marks an effect in flight for all
effects of the task.
-/

/-- `effect_key.split(":", 1)[0]`. -/
def effectTask (key : String) : String :=
  String.ofList (key.toList.takeWhile (· ≠ ':'))

/-- `has_inflight_effect`: the marker is stored and not empty. -/
def TaskHash.hasInflightEffect (task : TaskHash) : Bool :=
  task.activeEffect.any (· ≠ "")

/-- The key belongs to the task. -/
def EffectOf (task : TaskId) (key : String) : Prop :=
  effectTask key = task.text

instance (task : TaskId) (key : String) : Decidable (EffectOf task key) :=
  inferInstanceAs (Decidable (effectTask key = task.text))

theorem TaskId.eq_of_text
    {left right : TaskId}
    (same : left.text = right.text) :
    left = right := by
  cases left
  cases right
  cases same
  rfl

/-- Lease calls, and effect calls under the key of the task they name. -/
inductive LedgerCall : Op → Prop
  | lease (op : LeaseOp) : LedgerCall (.lease op)
  | claim {key task} (lease metadata now) (named : EffectOf task key) :
      LedgerCall (.effect (.claim key task lease metadata now))
  | update (key lease metadata now) : LedgerCall (.effect (.update key lease metadata now))
  | complete {key task} (lease result now) (named : EffectOf task key) :
      LedgerCall (.effect (.complete key task lease result now))

/--
A completion by a lease holder finds a record that is still open or has the
same result, and does not take the marker away from another open effect.
-/
def CompletesOnce (s : Broker) (op : Op) : Prop :=
  match op with
  | .effect (.complete key task lease result _) =>
    s.leaseOk lease = true →
      ((s.effects key).status = some .completed → (s.effects key).result = some result) ∧
        ((s.tasks task).activeEffect = some key →
          ∀ other, other ≠ key → EffectOf task other →
            (s.effects other).status ≠ some .started)
  | _ => True

/-- What one ledger call does to the records and to the markers. -/
inductive LedgerStep (before after : Broker) : Prop
  | same
      (effects : after.effects = before.effects)
      (tasks : after.tasks = before.tasks)
  | opened (key : String) (task : TaskId) (record : EffectHash)
      (named : EffectOf task key)
      (absent : (before.effects key).status = none)
      (effects : after.effects = Function.update before.effects key record)
      (started : record.status = some .started)
      (tasks : after.tasks = Function.update before.tasks task
        { before.tasks task with activeEffect := some key })
  | marked (key : String) (task : TaskId)
      (named : EffectOf task key)
      (started : (before.effects key).status = some .started)
      (effects : after.effects = before.effects)
      (tasks : after.tasks = Function.update before.tasks task
        { before.tasks task with activeEffect := some key })
  | noted (key : String) (record : EffectHash)
      (effects : after.effects = Function.update before.effects key record)
      (status : record.status = (before.effects key).status)
      (result : record.result = (before.effects key).result)
      (tasks : after.tasks = before.tasks)
  | closed (key : String) (task : TaskId) (record : EffectHash)
      (named : EffectOf task key)
      (present : (before.effects key).status ≠ none)
      (effects : after.effects = Function.update before.effects key record)
      (completed : record.status = some .completed)
      (result : (before.effects key).status = some .completed →
        record.result = (before.effects key).result)
      (tasks : after.tasks =
        if (before.tasks task).activeEffect = some key then
          Function.update before.tasks task { before.tasks task with activeEffect := none }
        else before.tasks)
      (alone : (before.tasks task).activeEffect = some key →
        ∀ other, other ≠ key → EffectOf task other →
          (before.effects other).status ≠ some .started)

namespace Broker

variable (s : Broker)

theorem claimEffect_ledger
    {key : String} {task : TaskId} (lease : Option MrLease) (metadata : String) (now : Time)
    (named : EffectOf task key) :
    LedgerStep s (s.claimEffect key task lease metadata now).1 := by
  unfold claimEffect
  split
  · exact .same rfl rfl
  dsimp only
  split
  · rename_i started
    exact .marked key task named started rfl rfl
  · exact .same rfl rfl
  · rename_i absent
    exact .opened key task _ named absent rfl rfl rfl

theorem updateEffect_ledger
    (key : String) (lease : Option MrLease) (metadata : String) (now : Time) :
    LedgerStep s (s.updateEffect key lease metadata now).1 := by
  unfold updateEffect
  split
  · exact .same rfl rfl
  dsimp only
  split
  · exact .same rfl rfl
  · exact .noted key _ rfl rfl rfl rfl

theorem completeEffect_ledger
    {key : String} {task : TaskId} (lease : Option MrLease) (result : String) (now : Time)
    (named : EffectOf task key)
    (once : CompletesOnce s (.effect (.complete key task lease result now))) :
    LedgerStep s (s.completeEffect key task lease result now).1 := by
  unfold completeEffect
  split
  · exact .same rfl rfl
  rename_i held
  obtain ⟨unchanged, alone⟩ := once (by simpa using held)
  dsimp only
  split
  · exact .same rfl rfl
  rename_i present
  split
  · rename_i marked
    refine .closed key task _ named present rfl rfl ?_ ?_ alone
    · intro completed
      exact (unchanged completed).symm
    · rw [if_pos marked]
      rfl
  · rename_i unmarked
    refine .closed key task _ named present rfl rfl ?_ ?_ alone
    · intro completed
      exact (unchanged completed).symm
    · rw [if_neg unmarked]

theorem step_ledger
    {op : Op}
    (call : LedgerCall op)
    (once : CompletesOnce s op) :
    LedgerStep s (s.step op) := by
  cases call with
  | lease op =>
      obtain ⟨leases, fences, changed⟩ := leaseStep_frame s op
      rw [step, changed]
      exact .same rfl rfl
  | claim lease metadata now named =>
      exact claimEffect_ledger s lease metadata now named
  | update key lease metadata now =>
      exact updateEffect_ledger s key lease metadata now
  | complete lease result now named =>
      exact completeEffect_ledger s lease result now named once

end Broker

/-- The two moves of an effect's status. -/
inductive EffectMove : Option EffectStatus → Option EffectStatus → Prop
  | start : EffectMove none (some .started)
  | complete : EffectMove (some .started) (some .completed)

/-- A completed record stays completed with its result. -/
def RecordKept (before after : EffectHash) : Prop :=
  before.status = some .completed →
    after.status = some .completed ∧ after.result = before.result

/-- The marker names an open effect of its task, and an open effect has a marker. -/
structure MarkerInv (s : Broker) : Prop where
  marked : ∀ task key, (s.tasks task).activeEffect = some key →
    EffectOf task key ∧ (s.effects key).status = some .started
  visible : ∀ task key, EffectOf task key → (s.effects key).status = some .started →
    (s.tasks task).activeEffect ≠ none

namespace LedgerStep

variable {before after : Broker}

theorem status
    (change : LedgerStep before after)
    (key : String) :
    (after.effects key).status = (before.effects key).status ∨
      EffectMove (before.effects key).status (after.effects key).status := by
  cases change with
  | same effects tasks =>
      exact Or.inl (by rw [effects])
  | marked changed task named started effects tasks =>
      exact Or.inl (by rw [effects])
  | opened changed task record named absent effects started tasks =>
      rw [effects]
      by_cases same : key = changed
      · subst key
        rw [Function.update_self, absent, started]
        exact Or.inr .start
      · exact Or.inl (by rw [Function.update_of_ne same])
  | noted changed record effects status result tasks =>
      rw [effects]
      by_cases same : key = changed
      · subst key
        exact Or.inl (by rw [Function.update_self, status])
      · exact Or.inl (by rw [Function.update_of_ne same])
  | closed changed task record named present effects completed result tasks alone =>
      rw [effects]
      by_cases same : key = changed
      · subst key
        rw [Function.update_self, completed]
        cases stored : (before.effects changed).status with
        | none =>
            exact absurd stored present
        | some status =>
            cases status with
            | started =>
                exact Or.inr .complete
            | completed =>
                exact Or.inl rfl
      · exact Or.inl (by rw [Function.update_of_ne same])

theorem kept
    (change : LedgerStep before after)
    (key : String) :
    RecordKept (before.effects key) (after.effects key) := by
  intro done
  cases change with
  | same effects tasks =>
      rw [effects]
      exact ⟨done, rfl⟩
  | marked changed task named started effects tasks =>
      rw [effects]
      exact ⟨done, rfl⟩
  | opened changed task record named absent effects started tasks =>
      have different : key ≠ changed := by
        rintro rfl
        rw [absent] at done
        cases done
      rw [effects, Function.update_of_ne different]
      exact ⟨done, rfl⟩
  | noted changed record effects status result tasks =>
      rw [effects]
      by_cases same : key = changed
      · subst key
        rw [Function.update_self]
        exact ⟨status.trans done, result⟩
      · rw [Function.update_of_ne same]
        exact ⟨done, rfl⟩
  | closed changed task record named present effects completed result tasks alone =>
      rw [effects]
      by_cases same : key = changed
      · subst key
        rw [Function.update_self]
        exact ⟨completed, result done⟩
      · rw [Function.update_of_ne same]
        exact ⟨done, rfl⟩

end LedgerStep

theorem EffectOf.unique
    {first second : TaskId}
    {key : String}
    (left : EffectOf first key)
    (right : EffectOf second key) :
    first = second :=
  TaskId.eq_of_text (left.symm.trans right)

namespace MarkerInv

variable {before after : Broker}

theorem mark
    {key : String} {task : TaskId}
    (named : EffectOf task key)
    (started : (after.effects key).status = some .started)
    (others : ∀ other, other ≠ key → (after.effects other).status = (before.effects other).status)
    (tasks : after.tasks = Function.update before.tasks task
      { before.tasks task with activeEffect := some key })
    (inv : MarkerInv before) :
    MarkerInv after := by
  constructor
  · intro owner marker stored
    rw [tasks] at stored
    by_cases same : owner = task
    · subst owner
      rw [Function.update_self] at stored
      cases stored
      exact ⟨named, started⟩
    · rw [Function.update_of_ne same] at stored
      obtain ⟨own, open_⟩ := inv.marked owner marker stored
      have different : marker ≠ key := by
        rintro rfl
        exact same (own.unique named)
      exact ⟨own, (others marker different).trans open_⟩
  · intro owner effect own open_
    rw [tasks]
    by_cases same : owner = task
    · subst owner
      rw [Function.update_self]
      exact Option.some_ne_none key
    · rw [Function.update_of_ne same]
      have different : effect ≠ key := by
        rintro rfl
        exact same (own.unique named)
      exact inv.visible owner effect own ((others effect different).symm.trans open_)

theorem close
    {key : String} {task : TaskId}
    (named : EffectOf task key)
    (completed : (after.effects key).status = some .completed)
    (others : ∀ other, other ≠ key → (after.effects other).status = (before.effects other).status)
    (tasks : after.tasks =
      if (before.tasks task).activeEffect = some key then
        Function.update before.tasks task { before.tasks task with activeEffect := none }
      else before.tasks)
    (alone : (before.tasks task).activeEffect = some key →
      ∀ other, other ≠ key → EffectOf task other →
        (before.effects other).status ≠ some .started)
    (inv : MarkerInv before) :
    MarkerInv after := by
  have notClosed : ∀ other, (after.effects other).status = some .started → other ≠ key := by
    rintro other open_ rfl
    rw [completed] at open_
    cases open_
  by_cases marked : (before.tasks task).activeEffect = some key
  · rw [if_pos marked] at tasks
    constructor
    · intro owner marker stored
      rw [tasks] at stored
      by_cases same : owner = task
      · subst owner
        rw [Function.update_self] at stored
        cases stored
      · rw [Function.update_of_ne same] at stored
        obtain ⟨own, open_⟩ := inv.marked owner marker stored
        have different : marker ≠ key := by
          rintro rfl
          exact same (own.unique named)
        exact ⟨own, (others marker different).trans open_⟩
    · intro owner effect own open_
      have different := notClosed effect open_
      have before_ := (others effect different).symm.trans open_
      rw [tasks]
      by_cases same : owner = task
      · subst owner
        exact absurd before_ (alone marked effect different own)
      · rw [Function.update_of_ne same]
        exact inv.visible owner effect own before_
  · rw [if_neg marked] at tasks
    constructor
    · intro owner marker stored
      rw [tasks] at stored
      obtain ⟨own, open_⟩ := inv.marked owner marker stored
      have different : marker ≠ key := by
        rintro rfl
        obtain rfl := own.unique named
        exact marked stored
      exact ⟨own, (others marker different).trans open_⟩
    · intro owner effect own open_
      rw [tasks]
      exact inv.visible owner effect own
        ((others effect (notClosed effect open_)).symm.trans open_)

theorem still
    (statuses : ∀ key, (after.effects key).status = (before.effects key).status)
    (tasks : after.tasks = before.tasks)
    (inv : MarkerInv before) :
    MarkerInv after := by
  constructor
  · intro owner marker stored
    rw [tasks] at stored
    rw [statuses]
    exact inv.marked owner marker stored
  · intro owner effect own open_
    rw [tasks]
    rw [statuses] at open_
    exact inv.visible owner effect own open_

theorem step
    (change : LedgerStep before after)
    (inv : MarkerInv before) :
    MarkerInv after := by
  cases change with
  | same effects tasks =>
      exact still (fun key => by rw [effects]) tasks inv
  | opened key task record named absent effects started tasks =>
      refine mark named ?_ ?_ tasks inv
      · rw [effects, Function.update_self, started]
      · intro other different
        rw [effects, Function.update_of_ne different]
  | marked key task named started effects tasks =>
      refine mark named ?_ ?_ tasks inv
      · rw [effects, started]
      · intro other _
        rw [effects]
  | noted key record effects status result tasks =>
      refine still ?_ tasks inv
      intro other
      rw [effects]
      by_cases same : other = key
      · subst other
        rw [Function.update_self, status]
      · rw [Function.update_of_ne same]
  | closed key task record named present effects completed result tasks alone =>
      refine close named ?_ ?_ tasks alone inv
      · rw [effects, Function.update_self, completed]
      · intro other different
        rw [effects, Function.update_of_ne different]

theorem hasInflightEffect_iff
    {s : Broker}
    (inv : MarkerInv s)
    (task : TaskId) :
    (s.tasks task).hasInflightEffect = true ↔
      ∃ key, EffectOf task key ∧ (s.effects key).status = some .started := by
  constructor
  · intro inflight
    cases stored : (s.tasks task).activeEffect with
    | none =>
        rw [TaskHash.hasInflightEffect, stored] at inflight
        cases inflight
    | some key =>
        exact ⟨key, inv.marked task key stored⟩
  · rintro ⟨key, own, open_⟩
    obtain ⟨marker, stored⟩ := Option.ne_none_iff_exists'.mp (inv.visible task key own open_)
    obtain ⟨named, _⟩ := inv.marked task marker stored
    have nonempty : marker ≠ "" := by
      rintro rfl
      exact task.nonempty named.symm
    rw [TaskHash.hasInflightEffect, stored]
    simpa using nonempty

end MarkerInv

/-- No effect was recorded and no marker set yet. -/
structure FreshLedger (s : Broker) : Prop where
  effects : ∀ key, (s.effects key).status = none
  markers : ∀ task, (s.tasks task).activeEffect = none

theorem FreshLedger.markerInv
    {s : Broker}
    (fresh : FreshLedger s) :
    MarkerInv s := by
  constructor
  · intro task key stored
    rw [fresh.markers] at stored
    cases stored
  · intro task key _ started
    rw [fresh.effects] at started
    cases started

/-- While completions are the first of their records, statuses move from absent to started to
completed, results stay, and a task is marked exactly while one of its effects is open. -/
theorem effect_ledger_consistent
    {s middle final : Broker}
    (fresh : FreshLedger s)
    (before : Reaches Broker.step (fun s op => LedgerCall op ∧ CompletesOnce s op) s middle)
    (after : Reaches Broker.step (fun s op => LedgerCall op ∧ CompletesOnce s op) middle final) :
    (∀ op key, LedgerCall op → CompletesOnce middle op →
      ((middle.step op).effects key).status = (middle.effects key).status ∨
        EffectMove (middle.effects key).status ((middle.step op).effects key).status) ∧
      (∀ key, (middle.effects key).status = some .completed →
        (final.effects key).status = some .completed ∧
          (final.effects key).result = (middle.effects key).result ∧
          ∀ task lease metadata now, final.leaseOk lease = true →
            (final.claimEffect key task lease metadata now).2 =
              .record .completed ((final.effects key).metadata.getD "\x7b\x7d")
                ((middle.effects key).result.getD "")) ∧
      ∀ task, (final.tasks task).hasInflightEffect = true ↔
        ∃ key, EffectOf task key ∧ (final.effects key).status = some .started := by
  refine ⟨?_, ?_, ?_⟩
  · intro op key call once
    exact (middle.step_ledger call once).status key
  · intro key done
    have kept : ∀ key, RecordKept (middle.effects key) (final.effects key) := by
      refine after.relates (fun first last => ∀ key, RecordKept (first.effects key)
        (last.effects key)) ?_ ?_ ?_
      · intro state key done
        exact ⟨done, rfl⟩
      · intro first second last left right key done
        obtain ⟨status, result⟩ := left key done
        obtain ⟨status', result'⟩ := right key status
        exact ⟨status', result'.trans result⟩
      · intro state op allowed
        exact (state.step_ledger allowed.1 allowed.2).kept
    obtain ⟨status, result⟩ := kept key done
    refine ⟨status, result, ?_⟩
    intro task lease metadata now held
    simp [Broker.claimEffect, held, status, result]
  · have steps : ∀ (state : Broker) (op : Op), MarkerInv state →
        LedgerCall op ∧ CompletesOnce state op → MarkerInv (state.step op) := by
      intro state op inv allowed
      exact MarkerInv.step (state.step_ledger allowed.1 allowed.2) inv
    have middleInv := before.invariant MarkerInv steps fresh.markerInv
    have finalInv := after.invariant MarkerInv steps middleInv
    exact finalInv.hasInflightEffect_iff

namespace LedgerSample

/-- Two comments of the sample repair task. -/
def firstKey : String := "repair:first"

def secondKey : String := "repair:second"

theorem firstKey_of : EffectOf Sample.repair firstKey := by
  decide

theorem secondKey_of : EffectOf Sample.repair secondKey := by
  decide

/-- One comment is claimed and recorded. -/
def recorded : List Op :=
  [.effect (.claim firstKey Sample.repair none "\x7b\x7d" 1),
    .effect (.complete firstKey Sample.repair none "5" 2)]

/-- Both comments are claimed and the later one is recorded. -/
def overlapping : List Op :=
  [.effect (.claim firstKey Sample.repair none "\x7b\x7d" 1),
    .effect (.claim secondKey Sample.repair none "\x7b\x7d" 2),
    .effect (.complete secondKey Sample.repair none "6" 3)]

/-- The comment is recorded a second time with another result. -/
def recordedAgain : List Op :=
  recorded ++ [.effect (.complete firstKey Sample.repair none "7" 3)]

end LedgerSample

theorem FreshLedger.empty : FreshLedger Broker.empty :=
  ⟨fun _ => rfl, fun _ => rfl⟩

open LedgerSample in
theorem recorded_comment_returned :
    ((recorded.foldl Broker.step Broker.empty).claimEffect firstKey Sample.repair none
        "\x7b\x7d" 9).2 = .record .completed "\x7b\x7d" "5" ∧
      ¬∃ key, EffectOf Sample.repair key ∧
        ((recorded.foldl Broker.step Broker.empty).effects key).status = some .started := by
  have closes : CompletesOnce
      (Broker.empty.step (.effect (.claim firstKey Sample.repair none "\x7b\x7d" 1)))
      (.effect (.complete firstKey Sample.repair none "5" 2)) := by
    intro _
    refine ⟨fun completed => absurd completed (by decide +kernel), ?_⟩
    intro _ other different _ started
    change ((Function.update _ firstKey _ : String → EffectHash) other).status = _ at started
    rw [Function.update_of_ne different] at started
    cases started
  have run : Reaches Broker.step (fun s op => LedgerCall op ∧ CompletesOnce s op) Broker.empty
      (recorded.foldl Broker.step Broker.empty) :=
    Reaches.of_follows
      ⟨⟨.claim _ _ _ firstKey_of, trivial⟩, ⟨.complete _ _ _ firstKey_of, closes⟩, trivial⟩
  obtain ⟨_, results, marker⟩ := effect_ledger_consistent FreshLedger.empty run (.refl _)
  obtain ⟨_, _, claimed⟩ := results firstKey (by decide +kernel)
  refine ⟨?_, ?_⟩
  · have returned := claimed Sample.repair none "\x7b\x7d" 9 rfl
    exact returned.trans (by decide +kernel)
  · intro started
    exact absurd ((marker Sample.repair).mpr started) (by decide +kernel)

open LedgerSample in
/--
Recording the second comment hides that the first one is still open, and
recording the first one twice changes its result.
-/
theorem overlapping_comment_hidden :
    (Reaches Broker.step (fun _ => LedgerCall) Broker.empty
        (overlapping.foldl Broker.step Broker.empty) ∧
      ((overlapping.foldl Broker.step Broker.empty).effects firstKey).status = some .started ∧
      ((overlapping.foldl Broker.step Broker.empty).tasks Sample.repair).hasInflightEffect =
        false) ∧
      Reaches Broker.step (fun _ => LedgerCall) Broker.empty
        (recordedAgain.foldl Broker.step Broker.empty) ∧
      ((recorded.foldl Broker.step Broker.empty).effects firstKey).status = some .completed ∧
      ((recorded.foldl Broker.step Broker.empty).effects firstKey).result = some "5" ∧
      ((recordedAgain.foldl Broker.step Broker.empty).effects firstKey).result = some "7" := by
  refine ⟨⟨?_, by decide +kernel, by decide +kernel⟩, ?_, by decide +kernel, by decide +kernel,
    by decide +kernel⟩
  · exact Reaches.of_follows
      ⟨.claim _ _ _ firstKey_of, .claim _ _ _ secondKey_of, .complete _ _ _ secondKey_of, trivial⟩
  · exact Reaches.of_follows
      ⟨.claim _ _ _ firstKey_of, .complete _ _ _ firstKey_of, .complete _ _ _ firstKey_of, trivial⟩

end MrAgent
