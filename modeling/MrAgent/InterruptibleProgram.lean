import Mathlib
import MrAgent.TransitionSystem

namespace Interruptible

open TransitionSystem

/-!
# Programs that may stop between any two calls

A program is a tree of calls to the outside world. Any number of threads run
programs over one world; a call is one step, a thread may crash between two
calls and start again, and the schedule chooses what a call finds.

The proof rule is a rely and guarantee rule: an outline names an invariant of
the world, how it grows, and what may happen between two calls of a thread.
-/

/-- A program that returns, raises, or calls the world and goes on with the reply. -/
inductive Program {Call : Type} (Reply : Call → Type) (Result : Type) where
  | ret (result : Result)
  | raise (message : String)
  | call (call : Call) (next : Reply call → Program Reply Result)

namespace Program

variable {Call : Type} {Reply : Call → Type} {α β : Type}

/-- Go on with the result of a program. -/
def bind (program : Program Reply α) (next : α → Program Reply β) : Program Reply β :=
  match program with
  | ret result => next result
  | raise message => raise message
  | call request continue_ => call request fun reply => (continue_ reply).bind next

instance : Monad (Program Reply) where
  pure := ret
  bind := bind

theorem bind_ret (program : Program Reply α) : program.bind ret = program := by
  induction program with
  | ret result =>
      rfl
  | raise message =>
      rfl
  | call request continue_ ih =>
      exact congrArg (call request) (funext ih)

theorem bind_bind
    {γ : Type}
    (program : Program Reply α)
    (first : α → Program Reply β)
    (second : β → Program Reply γ) :
    (program.bind first).bind second = program.bind fun result => (first result).bind second := by
  induction program with
  | ret result =>
      rfl
  | raise message =>
      rfl
  | call request continue_ ih =>
      exact congrArg (call request) (funext ih)

instance : LawfulMonad (Program Reply) :=
  LawfulMonad.mk' (Program Reply) bind_ret (fun _ _ => rfl) bind_bind

/-- One call, with its reply as the result. -/
def perform (request : Call) : Program Reply (Reply request) :=
  call request ret

end Program

/--
The calls of the threads and the changes from outside. `permits` says which
answers a call may find, `allows` which changes the running threads may meet.
-/
structure Machine
    (Thread : Type)
    {Call : Type}
    (Reply Answer : Call → Type)
    (World Input Result Change : Type) where
  program : Thread → Input → Program Reply Result
  perform : Thread → (call : Call) → Answer call → World → World × Reply call
  permits : Thread → Input → (call : Call) → Answer call → World → Prop
  change : Change → World → World
  allows : Change → (Thread → Bool) → World → Prop

/-- The world, what every thread still has to do, and how the finished runs ended. -/
structure State
    (Thread : Type)
    {Call : Type}
    (Reply : Call → Type)
    (World Input Result : Type) where
  world : World
  active : Thread → Option (Input × Program Reply Result)
  ended : List (Input × Except String Result)

/-- One step of the system. -/
inductive Op (Thread : Type) {Call : Type} (Answer : Call → Type) (Input Change : Type) where
  | start (thread : Thread) (input : Input)
  | advance (thread : Thread) (answer : (call : Call) → Answer call)
  | crash (thread : Thread)
  | change (change : Change)

section Machine

variable {Thread Call World Input Result Change : Type} {Reply Answer : Call → Type}

namespace State

/-- The run of a thread has ended. -/
def record
    (state : State Thread Reply World Input Result)
    (input : Input)
    (end_ : Except String Result) : State Thread Reply World Input Result :=
  { state with ended := state.ended ++ [(input, end_)] }

/-- The threads that are running. -/
def busy (state : State Thread Reply World Input Result) (thread : Thread) : Bool :=
  (state.active thread).isSome

variable [DecidableEq Thread]

/-- A thread goes on with other work, or stops. -/
def setActive
    (state : State Thread Reply World Input Result)
    (thread : Thread)
    (work : Option (Input × Program Reply Result)) : State Thread Reply World Input Result :=
  { state with active := Function.update state.active thread work }

@[simp]
theorem setActive_self
    (state : State Thread Reply World Input Result)
    (thread : Thread)
    (work : Option (Input × Program Reply Result)) :
    (state.setActive thread work).active thread = work := by
  simp [setActive]

theorem setActive_other
    (state : State Thread Reply World Input Result)
    {thread other : Thread}
    (work : Option (Input × Program Reply Result))
    (different : other ≠ thread) :
    (state.setActive thread work).active other = state.active other := by
  simp [setActive, different]

end State

namespace Machine

variable [DecidableEq Thread]
variable (machine : Machine Thread Reply Answer World Input Result Change)

/-- A thread ends its run, or makes its next call and takes the answer. -/
def advance
    (state : State Thread Reply World Input Result)
    (thread : Thread)
    (answer : (call : Call) → Answer call) : State Thread Reply World Input Result :=
  match state.active thread with
  | none => state
  | some (input, .ret result) =>
    (state.record input (.ok result)).setActive thread none
  | some (input, .raise message) =>
    (state.record input (.error message)).setActive thread none
  | some (input, .call call next) =>
    let (world, reply) := machine.perform thread call (answer call) state.world
    { state with world := world }.setActive thread (some (input, next reply))

def step
    (state : State Thread Reply World Input Result) :
    Op Thread Answer Input Change → State Thread Reply World Input Result
  | .start thread input =>
    if state.busy thread then state
    else state.setActive thread (some (input, machine.program thread input))
  | .advance thread answer => machine.advance state thread answer
  | .crash thread => state.setActive thread none
  | .change change => { state with world := machine.change change state.world }

/-- The schedule answers calls and changes the world as the machine says. -/
def allowed
    (state : State Thread Reply World Input Result) : Op Thread Answer Input Change → Prop
  | .advance thread answer => ∀ input call next,
    state.active thread = some (input, .call call next) →
      machine.permits thread input call (answer call) state.world
  | .change change => machine.allows change state.busy state.world
  | _ => True

/-- All states that some schedule reaches. -/
def Runs : State Thread Reply World Input Result → State Thread Reply World Input Result → Prop :=
  Reaches machine.step machine.allowed

end Machine

/-- Tests that are enough for a step to be allowed. -/
structure Checks (machine : Machine Thread Reply Answer World Input Result Change) where
  call : Thread → Input → (call : Call) → Answer call → World → Bool
  change : Change → (Thread → Bool) → World → Bool
  permits : ∀ {thread input request answer world}, call thread input request answer world = true →
    machine.permits thread input request answer world
  allows : ∀ {action busy world}, change action busy world = true →
    machine.allows action busy world

namespace Checks

variable {machine : Machine Thread Reply Answer World Input Result Change}
variable (checks : Checks machine)

/-- The test of one step. -/
def step (state : State Thread Reply World Input Result) : Op Thread Answer Input Change → Bool
  | .advance thread answer =>
    match state.active thread with
    | some (input, .call call _) => checks.call thread input call (answer call) state.world
    | _ => true
  | .change change => checks.change change state.busy state.world
  | _ => true

theorem allowed_of_step
    {state : State Thread Reply World Input Result}
    {op : Op Thread Answer Input Change}
    (passed : checks.step state op = true) :
    machine.allowed state op := by
  cases op with
  | start thread input =>
      exact trivial
  | advance thread answer =>
      intro input call next active
      simp only [step, active] at passed
      exact checks.permits passed
  | crash thread =>
      exact trivial
  | change change =>
      exact checks.allows passed

variable [DecidableEq Thread]

/-- The state after a schedule whose steps all pass their tests. -/
def replay (state : State Thread Reply World Input Result) :
    List (Op Thread Answer Input Change) → Option (State Thread Reply World Input Result)
  | [] => some state
  | op :: rest => if checks.step state op then replay (machine.step state op) rest else none

theorem runs_of_replay
    {ops : List (Op Thread Answer Input Change)}
    {start final : State Thread Reply World Input Result}
    (replayed : checks.replay start ops = some final) :
    machine.Runs start final := by
  induction ops generalizing start with
  | nil =>
      cases replayed
      exact Reaches.refl _
  | cons op rest ih =>
      unfold replay at replayed
      split at replayed
      · rename_i passed
        exact Relation.ReflTransGen.head ⟨op, checks.allowed_of_step passed, rfl⟩
          (ih replayed)
      · cases replayed

end Checks

/--
A safety argument: an invariant, the preorder in which the world grows, what a
thread relies on between two calls, and what must hold where a call is made.
-/
structure Outline (machine : Machine Thread Reply Answer World Input Result Change) where
  inv : World → Prop
  grows : World → World → Prop
  rely : Thread → World → World → Prop
  ready : Input → Call → World → Prop
  grows_refl : ∀ world, grows world world
  grows_trans : ∀ {first second third}, grows first second → grows second third → grows first third
  rely_refl : ∀ thread world, rely thread world world
  rely_trans : ∀ {thread first second third},
    rely thread first second → rely thread second third → rely thread first third

namespace Outline

variable {machine : Machine Thread Reply Answer World Input Result Change} {α β : Type}
variable (outline : Outline machine)

/-- Every call keeps the invariant and the end meets the postcondition. -/
def Safe
    (thread : Thread)
    (input : Input)
    (post : Except String α → World → Prop) : Program Reply α → World → Prop
  | .ret result, world => post (.ok result) world
  | .raise message, world => post (.error message) world
  | .call call next, world =>
    ∀ now, outline.rely thread world now → outline.inv now →
      outline.ready input call now ∧
        ∀ answer, machine.permits thread input call answer now →
          outline.inv (machine.perform thread call answer now).1 ∧
            Safe thread input post (next (machine.perform thread call answer now).2)
              (machine.perform thread call answer now).1

variable {outline}

namespace Safe

variable {thread : Thread} {input : Input} {world : World}

theorem later
    {post : Except String α → World → Prop}
    (stable : ∀ end_ before after, outline.rely thread before after →
      post end_ before → post end_ after)
    {program : Program Reply α}
    {now : World}
    (safe : outline.Safe thread input post program world)
    (passed : outline.rely thread world now) :
    outline.Safe thread input post program now := by
  cases program with
  | ret result =>
      exact stable _ _ _ passed safe
  | raise message =>
      exact stable _ _ _ passed safe
  | call call next =>
      intro after further inv
      exact safe after (outline.rely_trans passed further) inv

theorem bind
    {post : Except String β → World → Prop}
    {program : Program Reply α}
    {next : α → Program Reply β}
    (safe : outline.Safe thread input
      (fun end_ now =>
        match end_ with
        | .ok result => outline.Safe thread input post (next result) now
        | .error message => post (.error message) now)
      program world) :
    outline.Safe thread input post (program >>= next) world := by
  induction program generalizing world with
  | ret result =>
      exact safe
  | raise message =>
      exact safe
  | call call continue_ ih =>
      intro now passed inv
      obtain ⟨ready, rest⟩ := safe now passed inv
      refine ⟨ready, ?_⟩
      intro answer permitted
      obtain ⟨kept, after⟩ := rest answer permitted
      exact ⟨kept, ih _ after⟩

theorem mono
    {post weaker : Except String α → World → Prop}
    {program : Program Reply α}
    (safe : outline.Safe thread input post program world)
    (weaken : ∀ end_ now, post end_ now → weaker end_ now) :
    outline.Safe thread input weaker program world := by
  induction program generalizing world with
  | ret result =>
      exact weaken _ _ safe
  | raise message =>
      exact weaken _ _ safe
  | call call next ih =>
      intro now passed inv
      obtain ⟨ready, rest⟩ := safe now passed inv
      refine ⟨ready, ?_⟩
      intro answer permitted
      obtain ⟨kept, after⟩ := rest answer permitted
      exact ⟨kept, ih _ after⟩

end Safe

/--
The obligations of an outline. Every started program is safe for the
postcondition, and what is reported of its end stays true. The calls of a
thread and the changes from outside are among what the others rely on.
-/
structure Valid
    (outline : Outline machine)
    (post report : Input → Except String Result → World → Prop) : Prop where
  stable : ∀ thread input end_ before after,
    outline.rely thread before after → post input end_ before → post input end_ after
  reports : ∀ input end_ world, post input end_ world → report input end_ world
  lasting : ∀ input end_ before after,
    outline.grows before after → report input end_ before → report input end_ after
  starts : ∀ thread input world, outline.inv world →
    outline.Safe thread input (post input) (machine.program thread input) world
  performs : ∀ thread input call answer world, outline.inv world →
    machine.permits thread input call answer world →
      outline.grows world (machine.perform thread call answer world).1 ∧
        ∀ other, other ≠ thread →
          outline.rely other world (machine.perform thread call answer world).1
  changes : ∀ change busy world, outline.inv world → machine.allows change busy world →
    outline.inv (machine.change change world) ∧ outline.grows world (machine.change change world) ∧
      ∀ thread, busy thread = true → outline.rely thread world (machine.change change world)

/-- What holds in every state of a run. -/
structure Holds
    (outline : Outline machine)
    (post report : Input → Except String Result → World → Prop)
    (state : State Thread Reply World Input Result) : Prop where
  inv : outline.inv state.world
  safe : ∀ thread input program, state.active thread = some (input, program) →
    outline.Safe thread input (post input) program state.world
  ended : ∀ input end_, (input, end_) ∈ state.ended → report input end_ state.world

namespace Holds

variable {post report : Input → Except String Result → World → Prop}
variable {state : State Thread Reply World Input Result}

theorem grow
    (valid : outline.Valid post report)
    (holds : Holds outline post report state)
    {world : World}
    (inv : outline.inv world)
    (grows : outline.grows state.world world)
    (relied : ∀ thread, state.busy thread = true → outline.rely thread state.world world) :
    Holds outline post report { state with world := world } where
  inv := inv
  safe := by
    intro thread input program active
    have busy : state.busy thread = true := by
      change (state.active thread).isSome = true
      rw [show state.active thread = some (input, program) from active]
      rfl
    exact (holds.safe thread input program active).later
      (fun end_ before after => valid.stable thread input end_ before after) (relied thread busy)
  ended := by
    intro input end_ member
    exact valid.lasting input end_ _ _ grows (holds.ended input end_ member)

theorem record
    (holds : Holds outline post report state)
    {input : Input}
    {end_ : Except String Result}
    (met : report input end_ state.world) :
    Holds outline post report (state.record input end_) where
  inv := holds.inv
  safe := holds.safe
  ended := by
    intro other otherEnd member
    rcases List.mem_append.mp member with old | new
    · exact holds.ended other otherEnd old
    · obtain ⟨rfl, rfl⟩ := Prod.mk.inj (List.mem_singleton.mp new)
      exact met

variable [DecidableEq Thread]

theorem setActive
    (holds : Holds outline post report state)
    (thread : Thread)
    (work : Option (Input × Program Reply Result))
    (safe : ∀ input program, work = some (input, program) →
      outline.Safe thread input (post input) program state.world) :
    Holds outline post report (state.setActive thread work) where
  inv := holds.inv
  safe := by
    intro other input program active
    by_cases same : other = thread
    · subst other
      rw [State.setActive_self] at active
      exact safe input program active
    · rw [State.setActive_other state work same] at active
      exact holds.safe other input program active
  ended := holds.ended

theorem stop
    (holds : Holds outline post report state)
    (thread : Thread) :
    Holds outline post report (state.setActive thread none) := by
  apply holds.setActive thread none
  intro input program impossible
  cases impossible

theorem advance
    (valid : outline.Valid post report)
    (holds : Holds outline post report state)
    (thread : Thread)
    (answer : (call : Call) → Answer call)
    (permitted : machine.allowed state (.advance thread answer)) :
    Holds outline post report (machine.advance state thread answer) := by
  unfold Machine.advance
  split
  · exact holds
  · rename_i input result active
    exact (holds.record (valid.reports _ _ _ (holds.safe thread input _ active))).stop thread
  · rename_i input message active
    exact (holds.record (valid.reports _ _ _ (holds.safe thread input _ active))).stop thread
  · rename_i input call next active
    have permits := permitted input call next active
    have safe := holds.safe thread input _ active
    obtain ⟨_, rest⟩ := safe state.world (outline.rely_refl thread state.world) holds.inv
    obtain ⟨inv, after⟩ := rest _ permits
    obtain ⟨grows, others⟩ :=
      valid.performs thread input call (answer call) state.world holds.inv permits
    -- The caller leaves before the world changes and comes back with its continuation.
    have grown := (holds.stop thread).grow valid inv grows ?_
    · have back := grown.setActive thread
        (some (input, next (machine.perform thread call (answer call) state.world).2)) ?_
      · simpa [State.setActive] using back
      · rintro _ _ ⟨⟩
        exact after
    · intro other busy
      have different : other ≠ thread := by
        rintro rfl
        rw [State.busy, State.setActive_self] at busy
        cases busy
      exact others other different

theorem step
    (valid : outline.Valid post report)
    (holds : Holds outline post report state)
    (op : Op Thread Answer Input Change)
    (permitted : machine.allowed state op) :
    Holds outline post report (machine.step state op) := by
  cases op with
  | start thread input =>
      unfold Machine.step
      dsimp only
      split
      · exact holds
      · apply holds.setActive thread
        rintro _ _ ⟨⟩
        exact valid.starts thread input state.world holds.inv
  | advance thread answer =>
      exact holds.advance valid thread answer permitted
  | crash thread =>
      exact holds.stop thread
  | change change =>
      obtain ⟨inv, grows, relied⟩ := valid.changes change state.busy state.world holds.inv permitted
      exact holds.grow valid inv grows relied

theorem of_runs
    (valid : outline.Valid post report)
    {start final : State Thread Reply World Input Result}
    (run : machine.Runs start final)
    (initial : outline.inv start.world)
    (idle : ∀ thread, start.active thread = none)
    (fresh : start.ended = []) :
    Holds outline post report final := by
  apply run.invariant (Holds outline post report)
  · intro state op holds permitted
    exact holds.step valid op permitted
  · refine ⟨initial, ?_, ?_⟩
    · intro thread input program active
      rw [idle thread] at active
      cases active
    · intro input end_ member
      rw [fresh] at member
      cases member

end Holds

theorem grows_of_runs
    [DecidableEq Thread]
    {post report : Input → Except String Result → World → Prop}
    (valid : outline.Valid post report)
    {start final : State Thread Reply World Input Result}
    (run : machine.Runs start final)
    (holds : Holds outline post report start) :
    outline.grows start.world final.world := by
  have both := run.invariant
    (fun state => Holds outline post report state ∧ outline.grows start.world state.world)
    ?_ ⟨holds, outline.grows_refl _⟩
  · exact both.2
  · rintro state op ⟨held, grown⟩ permitted
    refine ⟨held.step valid op permitted, outline.grows_trans grown ?_⟩
    cases op with
    | start thread input =>
        unfold Machine.step
        dsimp only
        split <;> exact outline.grows_refl _
    | advance thread answer =>
        change outline.grows state.world (machine.advance state thread answer).world
        unfold Machine.advance
        split
        · exact outline.grows_refl _
        · exact outline.grows_refl _
        · exact outline.grows_refl _
        · rename_i input call next active
          exact (valid.performs thread input call (answer call) state.world held.inv
            (permitted input call next active)).1
    | crash thread =>
        exact outline.grows_refl _
    | change change =>
        exact (valid.changes change state.busy state.world held.inv permitted).2.1

end Outline

end Machine

end Interruptible
