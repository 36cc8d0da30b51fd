import Mathlib

namespace FencingToken

/-!
# Exclusive ownership with fencing tokens

A lock is held for one period at a time. Each new period takes the next value
of a counter as its token; a period ends when it is given up, taken away or
runs out. The lock remembers its ended periods, newest first, so that facts
about whole histories are facts about one list.
-/

universe u

variable {Owner : Type u}

/-- The state of one lock with the history of its ended periods. -/
structure Lock (Owner : Type u) where
  holder : Option (Owner × Nat)
  counter : Nat
  ended : List (Owner × Nat)

namespace Lock

/-- All ownership periods so far, newest first. -/
def periods (lock : Lock Owner) : List (Owner × Nat) :=
  lock.holder.toList ++ lock.ended

/-- Acquire a free lock under the next token; a held lock is left alone. -/
def acquire (owner : Owner) (lock : Lock Owner) : Lock Owner :=
  match lock.holder with
  | some _ => lock
  | none =>
    { lock with holder := some (owner, lock.counter + 1), counter := lock.counter + 1 }

/-- End the current period, if there is one. -/
def drop (lock : Lock Owner) : Lock Owner :=
  { lock with holder := none, ended := lock.periods }

/-- Tokens strictly increase over time and never exceed the counter. -/
structure WellFenced (lock : Lock Owner) : Prop where
  increasing : lock.periods.Pairwise fun newer older => older.2 < newer.2
  bounded : ∀ period ∈ lock.periods, period.2 ≤ lock.counter

namespace WellFenced

theorem of_unused
    (counter : Nat) :
    WellFenced (Lock.mk (none : Option (Owner × Nat)) counter []) :=
  ⟨by simp [periods], by simp [periods]⟩

variable {lock : Lock Owner}

theorem acquire
    (fenced : WellFenced lock)
    (owner : Owner) :
    WellFenced (lock.acquire owner) := by
  cases held : lock.holder with
  | some period =>
      simpa [Lock.acquire, held] using fenced
  | none =>
      have older : lock.periods = lock.ended := by
        simp [periods, held]
      refine ⟨?_, ?_⟩
      · simp only [Lock.acquire, held, periods, Option.toList_some, List.cons_append,
          List.nil_append, List.pairwise_cons]
        refine ⟨?_, older ▸ fenced.increasing⟩
        intro period member
        have below := fenced.bounded period (older ▸ member)
        omega
      · intro period member
        simp only [Lock.acquire, held, periods, Option.toList_some, List.cons_append,
          List.nil_append, List.mem_cons] at member ⊢
        rcases member with rfl | member
        · exact Nat.le_refl _
        · have below := fenced.bounded period (older ▸ member)
          omega

theorem drop
    (fenced : WellFenced lock) :
    WellFenced lock.drop := by
  refine ⟨?_, ?_⟩
  · simpa [Lock.drop, periods] using fenced.increasing
  · simpa [Lock.drop, periods] using fenced.bounded

variable {period : Owner × Nat}

theorem holder_bounded
    (fenced : WellFenced lock)
    (held : lock.holder = some period) :
    period.2 ≤ lock.counter :=
  fenced.bounded period (by simp [periods, held])

theorem tokens_nodup
    (fenced : WellFenced lock) :
    (lock.periods.map Prod.snd).Nodup := by
  rw [List.Nodup, List.pairwise_map]
  exact fenced.increasing.imp fun smaller => Nat.ne_of_gt smaller

theorem ended_not_held
    (fenced : WellFenced lock)
    (past : period ∈ lock.ended) :
    lock.holder ≠ some period := by
  intro held
  have increasing := fenced.increasing
  simp only [periods, held, Option.toList_some, List.cons_append, List.nil_append,
    List.pairwise_cons] at increasing
  exact Nat.lt_irrefl _ (increasing.1 period past)

end WellFenced

end Lock

end FencingToken
