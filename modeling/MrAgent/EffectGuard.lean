import MrAgent.BrokerOperation

namespace MrAgent

open TransitionSystem

/-!
# Guarded external effects

`EffectGuard.run` and `SyncEffectGuard.run` claim an effect key, ask a
reconcile callback whether the effect is already there, act only if it is not,
and record the result. Every call is a step of its own, any number of runs
retry one key, and a run may crash between any two steps.
-/

/--
`json.dumps` and `json.loads` on the values of one effect. A value that cannot
be written makes `dumps` raise, and a value that can be written is read back.
-/
structure JsonCodec (Value : Type) where
  null : Value
  dumps : Value → Option String
  loads : String → Value
  loads_dumps : ∀ {value text}, dumps value = some text → loads text = value
  dumps_nonempty : ∀ {value text}, dumps value = some text → text ≠ ""

/-- `json.loads(result) if result else None`. -/
def JsonCodec.result {Value : Type} (codec : JsonCodec Value) (text : String) : Value :=
  if text = "" then codec.null else codec.loads text

/-- The two implementations of `run`. -/
inductive GuardKind where
  | effectGuard
  | syncEffectGuard
deriving DecidableEq

/-- One effect key, and the implementation and lease of every run on it. -/
structure GuardedEffect (Value : Type) where
  codec : JsonCodec Value
  key : String
  task : TaskId
  kind : Nat → GuardKind
  lease : Nat → Option MrLease

/-- How far a run has come. -/
inductive GuardPhase (Value : Type) where
  | idle
  | checked
  | claimed
  | unreconciled
  | obtained (value : Value)
  | finished (value : Value)

/-- The run is between its claim and its completion. -/
def GuardPhase.inside {Value : Type} : GuardPhase Value → Bool
  | .claimed | .unreconciled | .obtained _ => true
  | _ => false

/-- What calling the action does: it returns, or raises before or after the effect happens. -/
inductive ActionOutcome (Value : Type) where
  | done (value : Value)
  | raisedAfter
  | raisedBefore

/--
The broker, the effect and all runs: `performed` counts the performances,
`observed` lists what was said of the result, `returned` what runs returned.
-/
structure GuardWorld (Value : Type) where
  broker : Broker
  present : Bool
  performed : Nat
  observed : List Value
  returned : List Value
  phase : Nat → GuardPhase Value

/-- One step of a run, or of the world around the runs. -/
inductive GuardOp (Value : Type) where
  | check (run : Nat)
  | claim (run : Nat) (now : Time)
  | reconcile (run : Nat) (reconciled : Value)
  | action (run : Nat) (outcome : ActionOutcome Value)
  | complete (run : Nat) (now : Time)
  | finish (run : Nat)
  | crash (run : Nat)
  | appear
  | elsewhere (next : Broker)

namespace GuardWorld

variable {Value : Type}

def setPhase (w : GuardWorld Value) (run : Nat) (phase : GuardPhase Value) : GuardWorld Value :=
  { w with phase := Function.update w.phase run phase }

@[simp] theorem setPhase_self (w : GuardWorld Value) (run : Nat) (phase : GuardPhase Value) :
    (w.setPhase run phase).phase run = phase := by
  simp [setPhase]

theorem setPhase_other
    (w : GuardWorld Value) {run other : Nat} (phase : GuardPhase Value)
    (different : other ≠ run) :
    (w.setPhase run phase).phase other = w.phase other := by
  simp [setPhase, different]

theorem setPhase_setPhase (w : GuardWorld Value) (run : Nat) (first second : GuardPhase Value) :
    (w.setPhase run first).setPhase run second = w.setPhase run second := by
  simp [setPhase]

/-- `raise_if_canceled`. -/
def check (effect : GuardedEffect Value) (w : GuardWorld Value) (run : Nat) : GuardWorld Value :=
  match w.phase run with
  | .idle =>
    if (w.broker.tasks effect.task).cancelRequested then w
    else w.setPhase run .checked
  | _ => w

/-- `claim_effect`; a completed record is returned at once. -/
def claim (effect : GuardedEffect Value) (w : GuardWorld Value) (run : Nat) (now : Time) :
    GuardWorld Value :=
  match w.phase run with
  | .checked =>
    match w.broker.claimEffect effect.key effect.task (effect.lease run) "{}" now with
    | (broker, .lostLease) => { w with broker := broker }.setPhase run .idle
    | (broker, .record .completed _ result) =>
      { w with broker := broker }.setPhase run (.finished (effect.codec.result result))
    | (broker, .record .started _ _) => { w with broker := broker }.setPhase run .claimed
  | _ => w

/-- `reconcile(claim.metadata)`. -/
def reconcile [DecidableEq Value] (effect : GuardedEffect Value) (w : GuardWorld Value)
    (run : Nat) (reconciled : Value) : GuardWorld Value :=
  match w.phase run with
  | .claimed =>
    if reconciled = effect.codec.null then w.setPhase run .unreconciled
    else
      { w with observed := w.observed ++ [reconciled] }.setPhase run (.obtained reconciled)
  | _ => w

/-- `action()`. -/
def action (w : GuardWorld Value) (run : Nat) (outcome : ActionOutcome Value) : GuardWorld Value :=
  match w.phase run with
  | .unreconciled =>
    match outcome with
    | .done value =>
      { w with
        present := true
        performed := w.performed + 1
        observed := w.observed ++ [value] }.setPhase run (.obtained value)
    | .raisedAfter =>
      { w with present := true, performed := w.performed + 1 }.setPhase run .idle
    | .raisedBefore => w.setPhase run .idle
  | _ => w

/--
`complete_effect`. The synchronous guard raises when the record does not
exist; the other one does not look at the reply.
-/
def complete (effect : GuardedEffect Value) (w : GuardWorld Value) (run : Nat) (now : Time) :
    GuardWorld Value :=
  match w.phase run with
  | .obtained value =>
    match effect.codec.dumps value with
    | none => w.setPhase run .idle
    | some text =>
      let (broker, reply) :=
        w.broker.completeEffect effect.key effect.task (effect.lease run) text now
      if reply = -1 then { w with broker := broker }.setPhase run .idle
      else if reply = 0 ∧ effect.kind run = .syncEffectGuard then
        { w with broker := broker }.setPhase run .idle
      else { w with broker := broker }.setPhase run (.finished value)
  | _ => w

/-- The run returns its value. -/
def finish (w : GuardWorld Value) (run : Nat) : GuardWorld Value :=
  match w.phase run with
  | .finished value => { w with returned := w.returned ++ [value] }.setPhase run .idle
  | _ => w

def step [DecidableEq Value] (effect : GuardedEffect Value) (w : GuardWorld Value) :
    GuardOp Value → GuardWorld Value
  | .check run => w.check effect run
  | .claim run now => w.claim effect run now
  | .reconcile run reconciled => w.reconcile effect run reconciled
  | .action run outcome => w.action run outcome
  | .complete run now => w.complete effect run now
  | .finish run => w.finish run
  | .crash run => w.setPhase run .idle
  | .appear => { w with present := true }
  | .elsewhere next => { w with broker := next }

end GuardWorld

/--
One run at a time between claim and completion, a reconcile callback that
answers exactly when the effect is present, and other calls that leave the
status and the result of the key alone.
-/
def GuardedEffect.Respects {Value : Type}
    (effect : GuardedEffect Value) (w : GuardWorld Value) : GuardOp Value → Prop
  | .claim run _ => ∀ other, other ≠ run → (w.phase other).inside = false
  | .reconcile _ reconciled => reconciled ≠ effect.codec.null ↔ w.present = true
  | .elsewhere next =>
    (next.effects effect.key).status = (w.broker.effects effect.key).status ∧
      (next.effects effect.key).result = (w.broker.effects effect.key).result
  | _ => True

/-- The record is completed with this value. -/
def GuardedEffect.Recorded {Value : Type}
    (effect : GuardedEffect Value) (broker : Broker) (value : Value) : Prop :=
  (broker.effects effect.key).status = some .completed ∧
    ∃ text, (broker.effects effect.key).result = some text ∧
      effect.codec.dumps value = some text

namespace GuardedEffect.Recorded

variable {Value : Type} {effect : GuardedEffect Value} {broker : Broker}

theorem unique
    {first second : Value}
    (left : effect.Recorded broker first)
    (right : effect.Recorded broker second) :
    first = second := by
  obtain ⟨_, text, stored, written⟩ := left
  obtain ⟨_, text', stored', written'⟩ := right
  have same : text = text' := Option.some.inj (stored.symm.trans stored')
  subst same
  exact (effect.codec.loads_dumps written).symm.trans (effect.codec.loads_dumps written')

variable {value : Value}

theorem result
    (recorded : effect.Recorded broker value) :
    effect.codec.result ((broker.effects effect.key).result.getD "") = value := by
  obtain ⟨_, text, stored, written⟩ := recorded
  rw [stored, Option.getD_some, JsonCodec.result, if_neg (effect.codec.dumps_nonempty written)]
  exact effect.codec.loads_dumps written

theorem congr
    {next : Broker}
    (status : (next.effects effect.key).status = (broker.effects effect.key).status)
    (result : (next.effects effect.key).result = (broker.effects effect.key).result)
    (recorded : effect.Recorded broker value) :
    effect.Recorded next value := by
  obtain ⟨completed, text, stored, written⟩ := recorded
  exact ⟨status.trans completed, text, result.trans stored, written⟩

end GuardedEffect.Recorded

/-- The invariant of all runs on one effect. -/
structure GuardInv {Value : Type} (effect : GuardedEffect Value) (w : GuardWorld Value) : Prop where
  alone : ∀ first second,
    (w.phase first).inside = true → (w.phase second).inside = true → first = second
  started : ∀ run, (w.phase run).inside = true →
    (w.broker.effects effect.key).status = some .started
  once : w.performed ≤ 1
  seen : w.performed ≠ 0 → w.present = true
  untouched : ∀ run, w.phase run = .unreconciled → w.performed = 0
  obtained : ∀ run value, w.phase run = .obtained value → value ∈ w.observed
  completed : (w.broker.effects effect.key).status = some .completed →
    ∃ value ∈ w.observed, effect.Recorded w.broker value
  finished : ∀ run value, w.phase run = .finished value → effect.Recorded w.broker value
  returned : ∀ value ∈ w.returned, effect.Recorded w.broker value

namespace GuardInv

variable {Value : Type} {effect : GuardedEffect Value} {w : GuardWorld Value}

theorem setPhase
    (inv : GuardInv effect w)
    (run : Nat)
    (phase : GuardPhase Value)
    (entered : phase.inside = true →
      (w.broker.effects effect.key).status = some .started ∧
        ∀ other, other ≠ run → (w.phase other).inside = false)
    (untouched : phase = .unreconciled → w.performed = 0)
    (obtained : ∀ value, phase = .obtained value → value ∈ w.observed)
    (finished : ∀ value, phase = .finished value → effect.Recorded w.broker value) :
    GuardInv effect (w.setPhase run phase) := by
  have self := w.setPhase_self run phase
  have others : ∀ other, other ≠ run → (w.setPhase run phase).phase other = w.phase other :=
    fun other different => w.setPhase_other phase different
  constructor
  case alone =>
    -- An inside run next to the moved one contradicts what its phase asks for.
    intro first second left right
    by_cases one : first = run
    · by_cases two : second = run
      · exact one.trans two.symm
      · subst one
        rw [self] at left
        rw [others second two, (entered left).2 second two] at right
        cases right
    · by_cases two : second = run
      · subst two
        rw [self] at right
        rw [others first one, (entered right).2 first one] at left
        cases left
      · rw [others first one] at left
        rw [others second two] at right
        exact inv.alone first second left right
  case started =>
    intro other inside
    by_cases same : other = run
    · subst same
      rw [self] at inside
      exact (entered inside).1
    · rw [others other same] at inside
      exact inv.started other inside
  case once =>
    exact inv.once
  case seen =>
    exact inv.seen
  case untouched =>
    intro other here
    by_cases same : other = run
    · subst same
      exact untouched (self.symm.trans here)
    · rw [others other same] at here
      exact inv.untouched other here
  case obtained =>
    intro other value here
    by_cases same : other = run
    · subst same
      exact obtained value (self.symm.trans here)
    · rw [others other same] at here
      exact inv.obtained other value here
  case completed =>
    exact inv.completed
  case finished =>
    intro other value here
    by_cases same : other = run
    · subst same
      exact finished value (self.symm.trans here)
    · rw [others other same] at here
      exact inv.finished other value here
  case returned =>
    exact inv.returned

theorem idle
    (inv : GuardInv effect w)
    (run : Nat) :
    GuardInv effect (w.setPhase run .idle) := by
  refine inv.setPhase run .idle ?_ ?_ ?_ ?_
  · intro inside
    cases inside
  · intro here
    cases here
  · intro value here
    cases here
  · intro value here
    cases here

theorem idle_outside
    (inv : GuardInv effect w)
    {run : Nat}
    (inside : (w.phase run).inside = true)
    (other : Nat) :
    ((w.setPhase run .idle).phase other).inside = false := by
  by_cases same : other = run
  · subst same
    rw [GuardWorld.setPhase_self]
    rfl
  · rw [w.setPhase_other .idle same]
    cases busy : (w.phase other).inside with
    | false =>
        rfl
    | true =>
        exact absurd (inv.alone other run busy inside) same

variable {next : Broker}

theorem elsewhere
    (inv : GuardInv effect w)
    (status : (next.effects effect.key).status = (w.broker.effects effect.key).status)
    (result : (next.effects effect.key).result = (w.broker.effects effect.key).result) :
    GuardInv effect { w with broker := next } where
  alone := inv.alone
  started := fun run inside => status.trans (inv.started run inside)
  once := inv.once
  seen := inv.seen
  untouched := inv.untouched
  obtained := inv.obtained
  completed := by
    intro done
    obtain ⟨value, member, recorded⟩ := inv.completed (status.symm.trans done)
    exact ⟨value, member, recorded.congr status result⟩
  finished := fun run value here => (inv.finished run value here).congr status result
  returned := fun value member => (inv.returned value member).congr status result

theorem fresh
    (inv : GuardInv effect w)
    (unrecorded : (w.broker.effects effect.key).status ≠ some .completed) :
    (∀ run value, w.phase run ≠ .finished value) ∧ ∀ value, value ∉ w.returned := by
  refine ⟨?_, ?_⟩
  · intro run value here
    exact unrecorded (inv.finished run value here).1
  · intro value member
    exact unrecorded (inv.returned value member).1

theorem opened
    (inv : GuardInv effect w)
    (absent : (w.broker.effects effect.key).status = none)
    (started : (next.effects effect.key).status = some .started) :
    GuardInv effect { w with broker := next } := by
  obtain ⟨unfinished, unreturned⟩ := inv.fresh (by rw [absent]; exact fun never => by cases never)
  exact {
    alone := inv.alone
    started := fun _ _ => started
    once := inv.once
    seen := inv.seen
    untouched := inv.untouched
    obtained := inv.obtained
    completed := fun done => by
      rw [started] at done
      cases done
    finished := fun run value here => absurd here (unfinished run value)
    returned := fun value member => absurd member (unreturned value) }

theorem recorded
    (inv : GuardInv effect w)
    {value : Value}
    (outside : ∀ run, (w.phase run).inside = false)
    (unrecorded : (w.broker.effects effect.key).status ≠ some .completed)
    (member : value ∈ w.observed)
    (done : effect.Recorded next value) :
    GuardInv effect { w with broker := next } := by
  obtain ⟨unfinished, unreturned⟩ := inv.fresh unrecorded
  exact {
    alone := inv.alone
    started := fun run inside => by
      rw [outside run] at inside
      cases inside
    once := inv.once
    seen := inv.seen
    untouched := inv.untouched
    obtained := inv.obtained
    completed := fun _ => ⟨value, member, done⟩
    finished := fun run value here => absurd here (unfinished run value)
    returned := fun value member => absurd member (unreturned value) }

theorem performed
    (inv : GuardInv effect w)
    (outside : ∀ run, (w.phase run).inside = false)
    (first : w.performed = 0) :
    GuardInv effect { w with present := true, performed := w.performed + 1 } where
  alone := inv.alone
  started := inv.started
  once := by
    change w.performed + 1 ≤ 1
    omega
  seen := fun _ => rfl
  untouched := by
    intro run here
    have quiet := outside run
    change w.phase run = .unreconciled at here
    rw [here] at quiet
    cases quiet
  obtained := inv.obtained
  completed := inv.completed
  finished := inv.finished
  returned := inv.returned

theorem observed
    (inv : GuardInv effect w)
    (value : Value) :
    GuardInv effect { w with observed := w.observed ++ [value] } where
  alone := inv.alone
  started := inv.started
  once := inv.once
  seen := inv.seen
  untouched := inv.untouched
  obtained := fun run old here => List.mem_append_left _ (inv.obtained run old here)
  completed := by
    intro done
    obtain ⟨old, member, recorded⟩ := inv.completed done
    exact ⟨old, List.mem_append_left _ member, recorded⟩
  finished := inv.finished
  returned := inv.returned

theorem appear
    (inv : GuardInv effect w) :
    GuardInv effect { w with present := true } where
  alone := inv.alone
  started := inv.started
  once := inv.once
  seen := fun _ => rfl
  untouched := inv.untouched
  obtained := inv.obtained
  completed := inv.completed
  finished := inv.finished
  returned := inv.returned

end GuardInv

namespace Broker

variable (s : Broker)

theorem claimEffect_reply
    (key : String) (task : TaskId) (lease : Option MrLease) (metadata : String) (now : Time) :
    s.claimEffect key task lease metadata now = (s, .lostLease) ∨
      (∃ stored, (s.effects key).status = some .completed ∧
        s.claimEffect key task lease metadata now =
          (s, .record .completed stored ((s.effects key).result.getD ""))) ∨
      ∃ next stored result,
        s.claimEffect key task lease metadata now = (next, .record .started stored result) ∧
          (next.effects key).status = some .started ∧
          (((s.effects key).status = some .started ∧ next.effects = s.effects) ∨
            (s.effects key).status = none) := by
  unfold claimEffect
  split
  · exact Or.inl rfl
  dsimp only
  cases stored : (s.effects key).status with
  | none =>
      refine Or.inr (Or.inr ⟨_, _, _, rfl, ?_, Or.inr rfl⟩)
      simp [updTask]
  | some status =>
      cases status with
      | started =>
          exact Or.inr (Or.inr ⟨_, _, _, rfl, stored, Or.inl ⟨rfl, rfl⟩⟩)
      | completed =>
          exact Or.inr (Or.inl ⟨_, rfl, rfl⟩)

theorem completeEffect_reply
    {key : String} (task : TaskId) (lease : Option MrLease) (result : String) (now : Time)
    (started : (s.effects key).status = some .started) :
    s.completeEffect key task lease result now = (s, -1) ∨
      ∃ next, s.completeEffect key task lease result now = (next, 1) ∧
        (next.effects key).status = some .completed ∧
        (next.effects key).result = some result := by
  unfold completeEffect
  split
  · exact Or.inl rfl
  dsimp only
  rw [started, if_neg (by decide)]
  right
  split
  · exact ⟨_, rfl, by simp [updTask], by simp [updTask]⟩
  · exact ⟨_, rfl, by simp, by simp⟩

end Broker

namespace GuardInv

variable {Value : Type} {effect : GuardedEffect Value} {w : GuardWorld Value}

theorem check
    (inv : GuardInv effect w)
    (run : Nat) :
    GuardInv effect (w.check effect run) := by
  unfold GuardWorld.check
  split
  · split
    · exact inv
    · refine inv.setPhase run .checked ?_ ?_ ?_ ?_
      · intro inside
        cases inside
      · intro here
        cases here
      · intro value here
        cases here
      · intro value here
        cases here
  · exact inv

theorem claim
    (inv : GuardInv effect w)
    (run : Nat)
    (now : Time)
    (single : ∀ other, other ≠ run → (w.phase other).inside = false) :
    GuardInv effect (w.claim effect run now) := by
  unfold GuardWorld.claim
  split
  case h_2 =>
    exact inv
  rcases w.broker.claimEffect_reply effect.key effect.task (effect.lease run) "{}" now with
    lost | ⟨metadata, completed, found⟩ | ⟨next, metadata, result, opened, started, earlier⟩
  · rw [lost]
    exact inv.idle run
  · rw [found]
    -- The run returns what the completed record holds.
    obtain ⟨value, _, recorded⟩ := inv.completed completed
    have returns := recorded.result
    refine inv.setPhase run _ ?_ ?_ ?_ ?_
    · intro inside
      cases inside
    · intro here
      cases here
    · intro value here
      cases here
    · intro value' here
      cases here
      rw [returns]
      exact recorded
  · rw [opened]
    have kept : GuardInv effect { w with broker := next } := by
      rcases earlier with ⟨_, same⟩ | absent
      · exact inv.elsewhere (by rw [same]) (by rw [same])
      · exact inv.opened absent started
    refine kept.setPhase run .claimed ?_ ?_ ?_ ?_
    · intro _
      exact ⟨started, single⟩
    · intro here
      cases here
    · intro value here
      cases here
    · intro value here
      cases here

theorem advance
    (inv : GuardInv effect w)
    {run : Nat}
    (inside : (w.phase run).inside = true)
    (phase : GuardPhase Value)
    (unfinished : ∀ value, phase ≠ .finished value)
    (untouched : phase = .unreconciled → w.performed = 0)
    (obtained : ∀ value, phase = .obtained value → value ∈ w.observed) :
    GuardInv effect (w.setPhase run phase) := by
  refine inv.setPhase run phase ?_ untouched obtained ?_
  · intro _
    refine ⟨inv.started run inside, ?_⟩
    intro other different
    cases busy : (w.phase other).inside with
    | false =>
        rfl
    | true =>
        exact absurd (inv.alone other run busy inside) different
  · intro value here
    exact absurd here (unfinished value)

theorem reconcile [DecidableEq Value]
    (inv : GuardInv effect w)
    (run : Nat)
    (reconciled : Value)
    (truthful : reconciled ≠ effect.codec.null ↔ w.present = true) :
    GuardInv effect (w.reconcile effect run reconciled) := by
  unfold GuardWorld.reconcile
  split
  case h_2 =>
    exact inv
  rename_i here
  have inside : (w.phase run).inside = true := by
    rw [here]
    rfl
  split
  · rename_i missing
    -- Nothing was performed yet, or the callback would have found it.
    have first : w.performed = 0 := by
      by_contra acted
      exact truthful.mpr (inv.seen acted) missing
    refine inv.advance inside _ ?_ ?_ ?_
    · intro value same
      cases same
    · intro _
      exact first
    · intro value same
      cases same
  · refine (inv.observed reconciled).advance inside _ ?_ ?_ ?_
    · intro value same
      cases same
    · intro same
      cases same
    · intro value same
      cases same
      exact List.mem_append_right _ (List.mem_singleton_self reconciled)

theorem action
    (inv : GuardInv effect w)
    (run : Nat)
    (outcome : ActionOutcome Value) :
    GuardInv effect (w.action run outcome) := by
  unfold GuardWorld.action
  split
  case h_2 =>
    exact inv
  rename_i here
  have inside : (w.phase run).inside = true := by
    rw [here]
    rfl
  -- Leave the critical part, perform the effect, and enter again.
  have stopped := inv.idle run
  have happened := stopped.performed (inv.idle_outside inside) (inv.untouched run here)
  cases outcome with
  | raisedBefore =>
      exact stopped
  | raisedAfter =>
      exact happened
  | done value =>
      have entered := (happened.observed value).setPhase run (.obtained value) ?_ ?_ ?_ ?_
      · dsimp only
        rw [← GuardWorld.setPhase_setPhase _ run .idle]
        exact entered
      · intro _
        exact ⟨inv.started run inside, fun other _ => inv.idle_outside inside other⟩
      · intro wrong
        cases wrong
      · intro value' same
        cases same
        exact List.mem_append_right _ (List.mem_singleton_self value)
      · intro value' wrong
        cases wrong

theorem complete
    (inv : GuardInv effect w)
    (run : Nat)
    (now : Time) :
    GuardInv effect (w.complete effect run now) := by
  unfold GuardWorld.complete
  split
  case h_2 =>
    exact inv
  rename_i value here
  have inside : (w.phase run).inside = true := by
    rw [here]
    rfl
  have started := inv.started run inside
  split
  · exact inv.idle run
  rename_i text written
  rcases w.broker.completeEffect_reply effect.task (effect.lease run) text now started with
    lost | ⟨next, completed, status, result⟩
  · rw [lost]
    exact inv.idle run
  · rw [completed]
    have recorded : effect.Recorded next value := ⟨status, text, result, written⟩
    have unrecorded : (w.broker.effects effect.key).status ≠ some .completed := by
      rw [started]
      decide
    have closed := (inv.idle run).recorded (inv.idle_outside inside) unrecorded
      (inv.obtained run value here) recorded
    have returns := closed.setPhase run (.finished value) ?_ ?_ ?_ ?_
    · dsimp only
      rw [if_neg (by decide), if_neg (fun wrong => absurd wrong.1 (by decide)),
        ← GuardWorld.setPhase_setPhase _ run .idle]
      exact returns
    · intro wrong
      cases wrong
    · intro wrong
      cases wrong
    · intro value' wrong
      cases wrong
    · intro value' same
      cases same
      exact recorded

theorem finish
    (inv : GuardInv effect w)
    (run : Nat) :
    GuardInv effect (w.finish run) := by
  unfold GuardWorld.finish
  split
  case h_2 =>
    exact inv
  rename_i value here
  have returned : GuardInv effect { w with returned := w.returned ++ [value] } := by
    refine { inv with returned := ?_ }
    intro value' member
    rcases List.mem_append.mp member with old | new
    · exact inv.returned value' old
    · rw [List.mem_singleton.mp new]
      exact inv.finished run value here
  exact returned.idle run

theorem step [DecidableEq Value]
    (op : GuardOp Value)
    (inv : GuardInv effect w)
    (respects : effect.Respects w op) :
    GuardInv effect (w.step effect op) := by
  cases op with
  | check run =>
      exact inv.check run
  | claim run now =>
      exact inv.claim run now respects
  | reconcile run reconciled =>
      exact inv.reconcile run reconciled respects
  | action run outcome =>
      exact inv.action run outcome
  | complete run now =>
      exact inv.complete run now
  | finish run =>
      exact inv.finish run
  | crash run =>
      exact inv.idle run
  | appear =>
      exact inv.appear
  | elsewhere next =>
      exact inv.elsewhere respects.1 respects.2

end GuardInv

namespace GuardSample

/-- `True`, `False` and `None` as JSON. -/
def boolJson : JsonCodec (Option Bool) where
  null := none
  dumps
    | none => some "null"
    | some true => some "true"
    | some false => some "false"
  loads text :=
    if text = "true" then some true else if text = "false" then some false else none
  loads_dumps := by
    intro value text written
    rcases value with _ | _ | _ <;> cases written <;> decide
  dumps_nonempty := by
    intro value text written
    rcases value with _ | _ | _ <;> cases written <;> decide

/-- The labels of the sample repair task; even runs use the synchronous guard. -/
def labels : GuardedEffect (Option Bool) where
  codec := boolJson
  key := "repair:labels"
  task := Sample.repair
  kind run := if run % 2 = 0 then .syncEffectGuard else .effectGuard
  lease _ := none

def quiet : GuardWorld (Option Bool) :=
  ⟨Broker.empty, false, 0, [], [], fun _ => .idle⟩

/-- The first run crashes after the labels are set; two more runs follow. -/
def retries : List (GuardOp (Option Bool)) :=
  [.check 0, .claim 0 1, .reconcile 0 none, .action 0 .raisedAfter,
    .check 1, .claim 1 2, .reconcile 1 (some true), .complete 1 3, .finish 1,
    .check 2, .claim 2 4, .finish 2]

end GuardSample

end MrAgent
