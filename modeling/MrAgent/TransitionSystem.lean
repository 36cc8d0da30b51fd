import Mathlib

namespace TransitionSystem

/-!
# Runs of a deterministic system under a schedule

A system is a step function together with the operations a schedule may choose
in a given state. Runs are finite sequences of allowed operations. The module
packages the two inductions every later safety argument needs: an invariant
kept by each allowed step holds after every run, and a transitive relation
established by each step relates the ends of every run.
-/

universe u v

variable {State : Type u} {Op : Type v}

/-- One allowed operation leads from `before` to `after`. -/
def Step
    (step : State → Op → State)
    (allowed : State → Op → Prop)
    (before after : State) : Prop :=
  ∃ op, allowed before op ∧ after = step before op

/-- Some finite sequence of allowed operations leads from one state to another. -/
def Reaches
    (step : State → Op → State)
    (allowed : State → Op → Prop) : State → State → Prop :=
  Relation.ReflTransGen (Step step allowed)

/-- The operations of a schedule are allowed where they are executed. -/
def Follows
    (step : State → Op → State)
    (allowed : State → Op → Prop) : State → List Op → Prop
  | _, [] => True
  | state, op :: rest => allowed state op ∧ Follows step allowed (step state op) rest

namespace Reaches

variable {step : State → Op → State} {allowed : State → Op → Prop}

theorem refl (state : State) : Reaches step allowed state state :=
  Relation.ReflTransGen.refl

theorem snoc
    {start state : State}
    (run : Reaches step allowed start state)
    (op : Op)
    (permitted : allowed state op) :
    Reaches step allowed start (step state op) :=
  Relation.ReflTransGen.tail run ⟨op, permitted, rfl⟩

theorem of_follows
    {ops : List Op}
    {start : State}
    (follows : Follows step allowed start ops) :
    Reaches step allowed start (ops.foldl step start) := by
  induction ops generalizing start with
  | nil =>
      exact refl start
  | cons op rest ih =>
      obtain ⟨permitted, later⟩ := follows
      exact Relation.ReflTransGen.head ⟨op, permitted, rfl⟩ (ih later)

variable {start final : State}

theorem mono
    {more : State → Op → Prop}
    (run : Reaches step allowed start final)
    (weaker : ∀ state op, allowed state op → more state op) :
    Reaches step more start final := by
  induction run with
  | refl =>
      exact refl start
  | tail _ last ih =>
      obtain ⟨op, permitted, rfl⟩ := last
      exact ih.snoc op (weaker _ op permitted)

theorem invariant
    (inv : State → Prop)
    (preserved : ∀ state op, inv state → allowed state op → inv (step state op))
    (run : Reaches step allowed start final)
    (initial : inv start) :
    inv final := by
  induction run with
  | refl =>
      exact initial
  | tail _ last ih =>
      obtain ⟨op, permitted, rfl⟩ := last
      exact preserved _ op ih permitted

/--
A reflexive and transitive relation that every allowed step establishes
relates the two ends of every run.
-/
theorem relates
    (relation : State → State → Prop)
    (reflexive : ∀ state, relation state state)
    (transitive :
      ∀ {first middle last},
        relation first middle →
        relation middle last →
        relation first last)
    (established : ∀ state op, allowed state op → relation state (step state op))
    {start final : State}
    (run : Reaches step allowed start final) :
    relation start final := by
  induction run with
  | refl =>
      exact reflexive start
  | tail _ last ih =>
      obtain ⟨op, permitted, rfl⟩ := last
      exact transitive ih (established _ op permitted)

end Reaches

end TransitionSystem
