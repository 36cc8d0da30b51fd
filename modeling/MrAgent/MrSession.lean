import Mathlib
import MrAgent.ExecutorSuspension

namespace MrAgent

open TransitionSystem

/-!
# The session of a merge request

A worker keeps one `MrSession` per merge request. Its flags let normal tasks
run side by side and give a triage task the merge request for itself, also
while the task is suspended. Any number of `run` and `resume_pipeline` calls
are in progress at once; a section under the session's condition is one step,
and so is each broker call with which the executor decides about a delivery.
-/

/-- `is_triage_task` of the session. -/
def isTriageCommand (command : String) : Bool :=
  let word := (strip command.toList).takeWhile fun c => !isSpace c
  ["/triage".toList, "/fix-format".toList, "/fix_format".toList,
    "/repair-pipeline".toList].contains (word.map Char.toLower)

/-- Which of the two entry points a delivery uses. -/
inductive SessionMessage where
  | run
  | resumePipeline (event : PipelineEvent)
deriving DecidableEq

/-- One call of the session, made for one delivery. -/
structure SessionCall where
  envelope : TaskEnvelope
  message : SessionMessage

namespace SessionCall

def task (call : SessionCall) : TaskId :=
  call.envelope.taskId

def triage (call : SessionCall) : Bool :=
  isTriageCommand call.envelope.command

end SessionCall

/-- The flags of an `MrSession`. -/
structure MrSession where
  normalRunning : Nat
  exclusiveTaskId : Option TaskId
  triageWaitingTaskId : Option TaskId
deriving DecidableEq

namespace MrSession

variable (m : MrSession)

/-- What `_begin_normal` waits for. -/
def normalMayRun : Bool :=
  m.exclusiveTaskId = none && m.triageWaitingTaskId = none

/-- What `_begin_triage` waits for. -/
def triageMayRun (task : TaskId) : Bool :=
  m.exclusiveTaskId = some task || (m.exclusiveTaskId = none && m.normalRunning = 0)

def beginNormal : MrSession :=
  { m with normalRunning := m.normalRunning + 1 }

/-- `_end_normal`. -/
def endNormal : MrSession :=
  { m with normalRunning := m.normalRunning - 1 }

/-- The end of `_begin_triage`. -/
def enterTriage (task : TaskId) : MrSession :=
  { m with exclusiveTaskId := some task, triageWaitingTaskId := none }

/-- The triage task no longer waits. -/
def forgetWaiting (task : TaskId) : MrSession :=
  { m with
    triageWaitingTaskId :=
      if m.triageWaitingTaskId = some task then none else m.triageWaitingTaskId }

/-- `_end_triage`. -/
def endTriage (task : TaskId) : MrSession :=
  { m.forgetWaiting task with
    exclusiveTaskId := if m.exclusiveTaskId = some task then none else m.exclusiveTaskId }

end MrSession

/--
How far a call has come. A `leaked` call was let in and failed before its
`try` block, so nothing undoes its entry.
-/
inductive CallPhase where
  | outside
  | resuming
  | waiting
  | entered
  | cleared
  | working
  | declined
  | leaked
deriving DecidableEq

namespace CallPhase

/-- The call is between `_begin_normal` or `_begin_triage` and their counterpart. -/
def busy : CallPhase → Bool
  | entered | cleared | working | declined => true
  | _ => false

/-- A normal call in this phase is counted by the session. -/
def counted (phase : CallPhase) : Bool :=
  phase.busy || phase == leaked

end CallPhase

/-- The phase in which a call reaches `_begin_triage`. -/
def SessionCall.beforeTriage (call : SessionCall) : CallPhase :=
  if call.message = .run then .outside else .resuming

/--
The session, the broker, and all calls. A triage task is `unfinished` from when
the executor takes it up until a call working on it ends without suspending it.
-/
structure SessionWorld where
  session : MrSession
  broker : Broker
  phase : Nat → CallPhase
  unfinished : TaskId → Bool

/-- Steps of the calls, of the session and of the broker. -/
inductive SessionOp where
  | beginNormal (call : Nat)
  | beginTriageResume (call : Nat)
  | beginTriage (call : Nat)
  | wake (call : Nat)
  | abandon (call : Nat)
  | leak (call : Nat)
  | check (call : Nat)
  | start (call : Nat) (lease : Option MrLease) (now : Time)
  | fail (call : Nat)
  | finish (call : Nat) (suspended : Bool)
  | broker (op : Op)

/--
How `_execute` takes up a delivery: a resume must be claimed, any other
delivery must find the task assigned.
-/
def Broker.takeUp (s : Broker) (call : SessionCall) (lease : Option MrLease) (now : Time) :
    Broker × Bool :=
  match call.message with
  | .run =>
    let (next, reply) := s.transitionTask call.task [.assigned] .running lease {} now
    (next, reply = 1)
  | .resumePipeline event =>
    let (next, claim) := s.claimPipelineResume call.task event lease now
    (next, claim = .claimed)

namespace SessionWorld

variable (calls : Nat → SessionCall) (w : SessionWorld)

def setPhase (call : Nat) (phase : CallPhase) : SessionWorld :=
  { w with phase := Function.update w.phase call phase }

@[simp] theorem setPhase_self (call : Nat) (phase : CallPhase) :
    (w.setPhase call phase).phase call = phase := by
  simp [setPhase]

theorem setPhase_other
    {call other : Nat} (phase : CallPhase)
    (different : other ≠ call) :
    (w.setPhase call phase).phase other = w.phase other := by
  simp [setPhase, different]

def setSession (session : MrSession) : SessionWorld :=
  { w with session := session }

/-- `_begin_normal`; a call that may not run goes on waiting. -/
def beginNormal (call : Nat) : SessionWorld :=
  if (calls call).triage || w.phase call ≠ .outside then w
  else if w.session.normalMayRun then (w.setSession w.session.beginNormal).setPhase call .entered
  else w

/-- The first section of `_begin_triage_resume`. -/
def beginTriageResume (call : Nat) : SessionWorld :=
  if !(calls call).triage || (calls call).message = .run || w.phase call ≠ .outside then w
  else if w.session.exclusiveTaskId.any (· ≠ (calls call).task) then w
  else w.setPhase call .resuming

/-- `_begin_triage` until it is let in or has to wait. -/
def beginTriage (call : Nat) : SessionWorld :=
  if !(calls call).triage || w.phase call ≠ (calls call).beforeTriage then w
  else if w.session.triageWaitingTaskId.any (· ≠ (calls call).task) then w.setPhase call .outside
  else
    let session := { w.session with triageWaitingTaskId := some (calls call).task }
    if session.triageMayRun (calls call).task then
      (w.setSession (session.enterTriage (calls call).task)).setPhase call .entered
    else (w.setSession session).setPhase call .waiting

/-- A waiting triage call looks at the flags again. -/
def wake (call : Nat) : SessionWorld :=
  if !(calls call).triage || w.phase call ≠ .waiting then w
  else if w.session.triageMayRun (calls call).task then
    (w.setSession (w.session.enterTriage (calls call).task)).setPhase call .entered
  else w

/-- A waiting triage call is canceled. -/
def abandon (call : Nat) : SessionWorld :=
  if !(calls call).triage || w.phase call ≠ .waiting then w
  else (w.setSession (w.session.forgetWaiting (calls call).task)).setPhase call .outside

/-- The wait could not be recorded, and the call fails outside its `try` block. -/
def leak (call : Nat) : SessionWorld :=
  if w.phase call ≠ .entered then w else w.setPhase call .leaked

/-- `raise_if_canceled`: a canceled task is taken up to be finalized. -/
def check (call : Nat) : SessionWorld :=
  if w.phase call ≠ .entered then w
  else if (w.broker.tasks (calls call).task).cancelRequested then w.setPhase call .working
  else w.setPhase call .cleared

/-- The broker call with which the executor takes up or declines the delivery. -/
def start (call : Nat) (lease : Option MrLease) (now : Time) : SessionWorld :=
  if w.phase call ≠ .cleared then w
  else
    let (broker, taken) := w.broker.takeUp (calls call) lease now
    let w := { w with broker := broker }
    if taken then
      let unfinished :=
        if (calls call).triage then Function.update w.unfinished (calls call).task true
        else w.unfinished
      { w with unfinished := unfinished }.setPhase call .working
    else w.setPhase call .declined

/-- The executor fails before it takes up the delivery. -/
def fail (call : Nat) : SessionWorld :=
  if w.phase call ≠ .entered && w.phase call ≠ .cleared then w else w.setPhase call .declined

/-- The `finally` block: exclusivity is kept for a suspended triage task only. -/
def finish (call : Nat) (suspended : Bool) : SessionWorld :=
  if w.phase call ≠ .working && w.phase call ≠ .declined then w
  else if !(calls call).triage then
    (w.setSession w.session.endNormal).setPhase call .outside
  else if w.phase call = .working then
    if suspended then w.setPhase call .outside
    else
      { w with
        session := w.session.endTriage (calls call).task
        unfinished := Function.update w.unfinished (calls call).task false }.setPhase call .outside
  else (w.setSession (w.session.endTriage (calls call).task)).setPhase call .outside

def step (w : SessionWorld) : SessionOp → SessionWorld
  | .beginNormal call => w.beginNormal calls call
  | .beginTriageResume call => w.beginTriageResume calls call
  | .beginTriage call => w.beginTriage calls call
  | .wake call => w.wake calls call
  | .abandon call => w.abandon calls call
  | .leak call => w.leak call
  | .check call => w.check calls call
  | .start call lease now => w.start calls call lease now
  | .fail call => w.fail call
  | .finish call suspended => w.finish calls call suspended
  | .broker op => { w with broker := w.broker.step op }

end SessionWorld

/--
A triage call begins only when no other call for its task is in progress, and
an unfinished task is taken up by the executor.
-/
def Orderly (calls : Nat → SessionCall) (w : SessionWorld) : SessionOp → Prop
  | .beginTriage call | .wake call =>
    ∀ other, other ≠ call → (calls other).triage = true →
      (calls other).task = (calls call).task → (w.phase other).busy = false
  | .start call lease now =>
    (calls call).triage = true → w.unfinished (calls call).task = true →
      (w.broker.takeUp (calls call) lease now).2 = true
  | .fail call => (calls call).triage = true → w.unfinished (calls call).task = false
  | _ => True

/-- The calls of normal tasks that the session counts, and their number. -/
structure Counts (calls : Nat → SessionCall) (phase : Nat → CallPhase) (number : Nat)
    (normals : Finset Nat) : Prop where
  member : ∀ call, call ∈ normals ↔
    (calls call).triage = false ∧ (phase call).counted = true
  number : number = normals.card

/-- The invariant of a session. -/
structure SessionInv (calls : Nat → SessionCall) (w : SessionWorld) : Prop where
  holder : ∀ call, (calls call).triage = true → (w.phase call).busy = true →
    w.session.exclusiveTaskId = some (calls call).task
  single : ∀ first second, (calls first).triage = true → (calls second).triage = true →
    (w.phase first).busy = true → (w.phase second).busy = true → first = second
  held : ∀ task, w.unfinished task = true → w.session.exclusiveTaskId = some task
  refused : ∀ call, (calls call).triage = true → w.phase call = .declined →
    w.unfinished (calls call).task = false
  normals : ∃ normals, Counts calls w.phase w.session.normalRunning normals
  alone : w.session.exclusiveTaskId ≠ none →
    ∀ call, (calls call).triage = false → (w.phase call).counted = false

namespace Counts

variable {calls : Nat → SessionCall} {phase : Nat → CallPhase} {number : Nat}
  {normals : Finset Nat}

variable {next : CallPhase} {call : Nat}

theorem move
    (counts : Counts calls phase number normals)
    (same : (calls call).triage = false → next.counted = (phase call).counted) :
    Counts calls (Function.update phase call next) number normals := by
  refine ⟨?_, counts.number⟩
  intro other
  rw [counts.member other]
  by_cases moved : other = call
  · subst moved
    rw [Function.update_self]
    constructor
    · rintro ⟨normal, counted⟩
      exact ⟨normal, (same normal).trans counted⟩
    · rintro ⟨normal, counted⟩
      exact ⟨normal, (same normal).symm.trans counted⟩
  · rw [Function.update_of_ne moved]

theorem enter
    (counts : Counts calls phase number normals)
    (normal : (calls call).triage = false)
    (uncounted : (phase call).counted = false)
    (counted : next.counted = true) :
    Counts calls (Function.update phase call next) (number + 1) (insert call normals) := by
  have outside : call ∉ normals := by
    intro member
    have inside := ((counts.member call).mp member).2
    rw [uncounted] at inside
    cases inside
  constructor
  · intro other
    rw [Finset.mem_insert]
    by_cases moved : other = call
    · subst moved
      rw [Function.update_self]
      exact ⟨fun _ => ⟨normal, counted⟩, fun _ => Or.inl rfl⟩
    · rw [Function.update_of_ne moved, counts.member other]
      exact ⟨fun inside => inside.resolve_left moved, Or.inr⟩
  · rw [Finset.card_insert_of_notMem outside, counts.number]

theorem leave
    (counts : Counts calls phase number normals)
    (normal : (calls call).triage = false)
    (counted : (phase call).counted = true)
    (uncounted : next.counted = false) :
    Counts calls (Function.update phase call next) (number - 1) (normals.erase call) := by
  have inside : call ∈ normals := (counts.member call).mpr ⟨normal, counted⟩
  constructor
  · intro other
    rw [Finset.mem_erase]
    by_cases moved : other = call
    · subst moved
      rw [Function.update_self, uncounted]
      simp
    · rw [Function.update_of_ne moved, counts.member other]
      exact ⟨And.right, fun here => ⟨moved, here⟩⟩
  · rw [Finset.card_erase_of_mem inside, counts.number]

theorem uncounted
    (counts : Counts calls phase number normals)
    (zero : number = 0)
    (call : Nat)
    (normal : (calls call).triage = false) :
    (phase call).counted = false := by
  have empty : normals = ∅ := Finset.card_eq_zero.mp (counts.number.symm.trans zero)
  cases inside : (phase call).counted with
  | false =>
      rfl
  | true =>
      have member := (counts.member call).mpr ⟨normal, inside⟩
      rw [empty] at member
      exact absurd member (Finset.notMem_empty call)

end Counts

namespace SessionInv

variable {calls : Nat → SessionCall} {w : SessionWorld}

theorem move
    (inv : SessionInv calls w)
    (call : Nat)
    (phase : CallPhase)
    (waiting : Option TaskId)
    (busy : phase.busy = true → (w.phase call).busy = true)
    (counted : (calls call).triage = false → phase.counted = (w.phase call).counted)
    (refused : (calls call).triage = true → phase = .declined →
      w.unfinished (calls call).task = false) :
    SessionInv calls
      ((w.setSession { w.session with triageWaitingTaskId := waiting }).setPhase call phase) := by
  have before : ∀ other,
      (((w.setSession { w.session with triageWaitingTaskId := waiting }).setPhase call
        phase).phase other).busy = true → (w.phase other).busy = true := by
    intro other inside
    by_cases same : other = call
    · subst same
      rw [SessionWorld.setPhase_self] at inside
      exact busy inside
    · rwa [SessionWorld.setPhase_other _ _ same] at inside
  obtain ⟨normals, counts⟩ := inv.normals
  constructor
  · intro other triage inside
    exact inv.holder other triage (before other inside)
  · intro first second one two left right
    exact inv.single first second one two (before first left) (before second right)
  · exact inv.held
  · intro other triage here
    by_cases same : other = call
    · subst same
      rw [SessionWorld.setPhase_self] at here
      exact refused triage here
    · rw [SessionWorld.setPhase_other _ _ same] at here
      exact inv.refused other triage here
  · exact ⟨normals, counts.move counted⟩
  · intro exclusive other normal
    have quiet := inv.alone exclusive other normal
    by_cases same : other = call
    · subst same
      rw [SessionWorld.setPhase_self, counted normal]
      exact quiet
    · rw [SessionWorld.setPhase_other _ _ same]
      exact quiet

theorem setPhase
    (inv : SessionInv calls w)
    (call : Nat)
    (phase : CallPhase)
    (busy : phase.busy = true → (w.phase call).busy = true)
    (counted : (calls call).triage = false → phase.counted = (w.phase call).counted)
    (refused : (calls call).triage = true → phase = .declined →
      w.unfinished (calls call).task = false) :
    SessionInv calls (w.setPhase call phase) :=
  inv.move call phase w.session.triageWaitingTaskId busy counted refused

variable {call : Nat}

theorem enterTriage
    (inv : SessionInv calls w)
    (triage : (calls call).triage = true)
    (idle : (w.phase call).busy = false)
    (may : w.session.triageMayRun (calls call).task = true)
    (first : ∀ other, other ≠ call → (calls other).triage = true →
      (calls other).task = (calls call).task → (w.phase other).busy = false)
    (waiting : Option TaskId) :
    SessionInv calls
      ((w.setSession (({ w.session with triageWaitingTaskId := waiting } : MrSession).enterTriage
        (calls call).task)).setPhase call .entered) := by
  obtain ⟨normals, counts⟩ := inv.normals
  have exclusive : w.session.exclusiveTaskId = some (calls call).task ∨
      w.session.exclusiveTaskId = none ∧ w.session.normalRunning = 0 := by
    simpa [MrSession.triageMayRun] using may
  -- Any other busy triage call would have the merge request already, for another task.
  have others : ∀ other, other ≠ call → (calls other).triage = true →
      (w.phase other).busy = false := by
    intro other different also
    cases inside : (w.phase other).busy with
    | false =>
        rfl
    | true =>
        have holds := inv.holder other also inside
        rcases exclusive with mine | ⟨free, _⟩
        · have sameTask := Option.some.inj (holds.symm.trans mine)
          exact inside.symm.trans (first other different also sameTask)
        · rw [free] at holds
          cases holds
  have quiet : ∀ other, (calls other).triage = false → (w.phase other).counted = false := by
    rcases exclusive with mine | ⟨_, zero⟩
    · exact inv.alone (by rw [mine]; exact Option.some_ne_none _)
    · exact counts.uncounted zero
  have only : ∀ other, (calls other).triage = true →
      (((w.setSession (({ w.session with triageWaitingTaskId := waiting } : MrSession).enterTriage
        (calls call).task)).setPhase call .entered).phase other).busy = true → other = call := by
    intro other also inside
    by_contra different
    rw [SessionWorld.setPhase_other _ _ different] at inside
    have idle := others other different also
    change (w.phase other).busy = true at inside
    rw [idle] at inside
    cases inside
  constructor
  · intro other also inside
    rw [only other also inside]
    rfl
  · intro one two left right busy busy'
    exact (only one left busy).trans (only two right busy').symm
  · intro task unfinished
    have holds := inv.held task unfinished
    rcases exclusive with mine | ⟨free, _⟩
    · rw [← Option.some.inj (holds.symm.trans mine)]
      rfl
    · rw [free] at holds
      cases holds
  · intro other also here
    by_cases same : other = call
    · subst same
      rw [SessionWorld.setPhase_self] at here
      cases here
    · rw [SessionWorld.setPhase_other _ _ same] at here
      exact inv.refused other also here
  · refine ⟨normals, counts.move ?_⟩
    intro normal
    rw [triage] at normal
    cases normal
  · intro _ other normal
    have different : other ≠ call := by
      rintro rfl
      rw [triage] at normal
      cases normal
    rw [SessionWorld.setPhase_other _ _ different]
    exact quiet other normal

theorem countNormal
    (inv : SessionInv calls w)
    {call number : Nat}
    {phase : CallPhase}
    (normal : (calls call).triage = false)
    (normals : ∃ normals, Counts calls (Function.update w.phase call phase) number normals)
    (alone : w.session.exclusiveTaskId ≠ none → phase.counted = false) :
    SessionInv calls
      ((w.setSession { w.session with normalRunning := number }).setPhase call phase) := by
  have kept : ∀ other, (calls other).triage = true →
      ((w.setSession { w.session with normalRunning := number }).setPhase call phase).phase other =
        w.phase other := by
    intro other triage
    have different : other ≠ call := by
      rintro rfl
      rw [normal] at triage
      cases triage
    exact SessionWorld.setPhase_other _ _ different
  constructor
  · intro other triage busy
    rw [kept other triage] at busy
    exact inv.holder other triage busy
  · intro first second one two left right
    rw [kept first one] at left
    rw [kept second two] at right
    exact inv.single first second one two left right
  · exact inv.held
  · intro other triage here
    rw [kept other triage] at here
    exact inv.refused other triage here
  · exact normals
  · intro exclusive other also
    by_cases same : other = call
    · subst same
      rw [SessionWorld.setPhase_self]
      exact alone exclusive
    · rw [SessionWorld.setPhase_other _ _ same]
      exact inv.alone exclusive other also

theorem beginNormal
    (inv : SessionInv calls w)
    (normal : (calls call).triage = false)
    (outside : w.phase call = .outside)
    (may : w.session.normalMayRun = true) :
    SessionInv calls ((w.setSession w.session.beginNormal).setPhase call .entered) := by
  obtain ⟨normals, counts⟩ := inv.normals
  obtain ⟨free, _⟩ : w.session.exclusiveTaskId = none ∧ w.session.triageWaitingTaskId = none := by
    simpa [MrSession.normalMayRun] using may
  refine inv.countNormal normal ⟨_, counts.enter normal ?_ rfl⟩ ?_
  · rw [outside]
    rfl
  · intro exclusive
    exact absurd free exclusive

theorem endNormal
    (inv : SessionInv calls w)
    (normal : (calls call).triage = false)
    (inside : (w.phase call).counted = true) :
    SessionInv calls ((w.setSession w.session.endNormal).setPhase call .outside) := by
  obtain ⟨normals, counts⟩ := inv.normals
  exact inv.countNormal normal ⟨_, counts.leave normal inside rfl⟩ (fun _ => rfl)

theorem endTriage
    (inv : SessionInv calls w)
    (triage : (calls call).triage = true)
    (busy : (w.phase call).busy = true)
    (unfinished : TaskId → Bool)
    (finished : unfinished (calls call).task = false)
    (same : ∀ task, unfinished task = true → w.unfinished task = true) :
    SessionInv calls
      (({ w with
        session := w.session.endTriage (calls call).task
        unfinished := unfinished } : SessionWorld).setPhase call .outside) := by
  obtain ⟨normals, counts⟩ := inv.normals
  have holds := inv.holder call triage busy
  have released : (w.session.endTriage (calls call).task).exclusiveTaskId = none := by
    rw [MrSession.endTriage]
    exact if_pos holds
  have none_ : ∀ other, (calls other).triage = true →
      ((({ w with
        session := w.session.endTriage (calls call).task
        unfinished := unfinished } : SessionWorld).setPhase call .outside).phase other).busy =
          false := by
    intro other also
    by_cases moved : other = call
    · subst moved
      rw [SessionWorld.setPhase_self]
      rfl
    · rw [SessionWorld.setPhase_other _ _ moved]
      cases inside : (w.phase other).busy with
      | false =>
          rfl
      | true =>
          exact absurd (inv.single other call also triage inside busy) moved
  have settled : ∀ task, unfinished task = false := by
    intro task
    cases left : unfinished task with
    | false =>
        rfl
    | true =>
        have mine := Option.some.inj ((inv.held task (same task left)).symm.trans holds)
        rw [← mine, left] at finished
        cases finished
  constructor
  · intro other also inside
    rw [none_ other also] at inside
    cases inside
  · intro first second one _ left
    rw [none_ first one] at left
    cases left
  · intro task left
    change unfinished task = true at left
    rw [settled task] at left
    cases left
  · intro other _ _
    exact settled (calls other).task
  · refine ⟨normals, counts.move ?_⟩
    intro normal
    rw [triage] at normal
    cases normal
  · intro exclusive
    exact absurd released exclusive

theorem stepBeginNormal
    (inv : SessionInv calls w)
    (call : Nat) :
    SessionInv calls (w.beginNormal calls call) := by
  unfold SessionWorld.beginNormal
  split
  · exact inv
  rename_i ready
  obtain ⟨normal, outside⟩ : (calls call).triage = false ∧ w.phase call = .outside := by
    simpa using ready
  split
  · rename_i may
    exact inv.beginNormal normal outside may
  · exact inv

theorem stepBeginTriageResume
    (inv : SessionInv calls w)
    (call : Nat) :
    SessionInv calls (w.beginTriageResume calls call) := by
  unfold SessionWorld.beginTriageResume
  split
  · exact inv
  rename_i ready
  have outside : w.phase call = .outside := by
    have both := ready
    simp only [Bool.or_eq_true, decide_eq_true_eq, not_or, not_not] at both
    exact both.2
  split
  · exact inv
  · refine inv.setPhase call .resuming ?_ ?_ ?_
    · intro busy
      cases busy
    · intro _
      rw [outside]
      rfl
    · intro _ here
      cases here

theorem stepBeginTriage
    (inv : SessionInv calls w)
    (call : Nat)
    (orderly : Orderly calls w (.beginTriage call)) :
    SessionInv calls (w.beginTriage calls call) := by
  unfold SessionWorld.beginTriage
  dsimp only
  split
  · exact inv
  rename_i ready
  simp only [Bool.or_eq_true, decide_eq_true_eq, not_or, not_not] at ready
  have triage : (calls call).triage = true := by
    simpa using ready.1
  have normal : ∀ next : CallPhase, (calls call).triage = false →
      next.counted = (w.phase call).counted := by
    intro next wrong
    rw [triage] at wrong
    cases wrong
  have idle : (w.phase call).busy = false := by
    rw [ready.2, SessionCall.beforeTriage]
    split <;> rfl
  split
  · refine inv.setPhase call .outside ?_ (normal _) ?_
    · intro busy
      cases busy
    · intro _ here
      cases here
  split
  · rename_i may
    exact inv.enterTriage triage idle may orderly _
  · refine inv.move call .waiting _ ?_ (normal _) ?_
    · intro busy
      cases busy
    · intro _ here
      cases here

theorem stepWake
    (inv : SessionInv calls w)
    (call : Nat)
    (orderly : Orderly calls w (.wake call)) :
    SessionInv calls (w.wake calls call) := by
  unfold SessionWorld.wake
  split
  · exact inv
  rename_i ready
  simp only [Bool.or_eq_true, decide_eq_true_eq, not_or, not_not] at ready
  have triage : (calls call).triage = true := by
    simpa using ready.1
  split
  · rename_i may
    exact inv.enterTriage triage (by rw [ready.2]; rfl) may orderly w.session.triageWaitingTaskId
  · exact inv

theorem stepAbandon
    (inv : SessionInv calls w)
    (call : Nat) :
    SessionInv calls (w.abandon calls call) := by
  unfold SessionWorld.abandon
  split
  · exact inv
  rename_i ready
  simp only [Bool.or_eq_true, decide_eq_true_eq, not_or, not_not] at ready
  refine inv.move call .outside _ ?_ ?_ ?_
  · intro busy
    cases busy
  · intro _
    rw [ready.2]
    rfl
  · intro _ here
    cases here

theorem stepLeak
    (inv : SessionInv calls w)
    (call : Nat) :
    SessionInv calls (w.leak call) := by
  unfold SessionWorld.leak
  split
  · exact inv
  rename_i ready
  have entered : w.phase call = .entered := by
    simpa using ready
  refine inv.setPhase call .leaked ?_ ?_ ?_
  · intro busy
    cases busy
  · intro _
    rw [entered]
    rfl
  · intro _ here
    cases here

theorem advance
    (inv : SessionInv calls w)
    (busy : (w.phase call).busy = true)
    (phase : CallPhase)
    (still : phase.busy = true)
    (refused : (calls call).triage = true → phase = .declined →
      w.unfinished (calls call).task = false) :
    SessionInv calls (w.setPhase call phase) := by
  refine inv.setPhase call phase ?_ ?_ refused
  · intro _
    exact busy
  · intro _
    simp [CallPhase.counted, busy, still]

theorem stepCheck
    (inv : SessionInv calls w)
    (call : Nat) :
    SessionInv calls (w.check calls call) := by
  unfold SessionWorld.check
  split
  · exact inv
  rename_i ready
  have busy : (w.phase call).busy = true := by
    rw [show w.phase call = .entered by simpa using ready]
    rfl
  split
  · exact inv.advance busy .working rfl (fun _ here => by cases here)
  · exact inv.advance busy .cleared rfl (fun _ here => by cases here)

theorem setBroker
    (inv : SessionInv calls w)
    (broker : Broker) :
    SessionInv calls { w with broker := broker } :=
  ⟨inv.holder, inv.single, inv.held, inv.refused, inv.normals, inv.alone⟩

theorem takeUp
    (inv : SessionInv calls w)
    (triage : (calls call).triage = true)
    (cleared : w.phase call = .cleared) :
    SessionInv calls
      (({ w with unfinished := Function.update w.unfinished (calls call).task true } :
        SessionWorld).setPhase call .working) := by
  have busy : (w.phase call).busy = true := by
    rw [cleared]
    rfl
  have moved := inv.advance busy .working rfl (fun _ here => by cases here)
  refine { moved with held := ?_, refused := ?_ }
  · intro task unfinished
    by_cases same : task = (calls call).task
    · rw [same]
      exact inv.holder call triage busy
    · change Function.update w.unfinished (calls call).task true task = true at unfinished
      rw [Function.update_of_ne same] at unfinished
      exact inv.held task unfinished
  · intro other also here
    have different : other ≠ call := by
      rintro rfl
      rw [SessionWorld.setPhase_self] at here
      cases here
    rw [SessionWorld.setPhase_other _ _ different] at here
    change w.phase other = .declined at here
    have busy' : (w.phase other).busy = true := by
      rw [here]
      rfl
    exact absurd (inv.single other call also triage busy' busy) different

theorem stepStart
    (inv : SessionInv calls w)
    (call : Nat) (lease : Option MrLease) (now : Time)
    (orderly : Orderly calls w (.start call lease now)) :
    SessionInv calls (w.start calls call lease now) := by
  unfold SessionWorld.start
  split
  · exact inv
  rename_i ready
  have cleared : w.phase call = .cleared := by
    simpa using ready
  have busy : (w.phase call).busy = true := by
    rw [cleared]
    rfl
  dsimp only
  have changed := inv.setBroker (w.broker.takeUp (calls call) lease now).1
  split
  · split
    · rename_i triage
      exact changed.takeUp triage cleared
    · exact changed.advance busy .working rfl (fun _ here => by cases here)
  · rename_i declined
    refine changed.advance busy .declined rfl ?_
    intro triage _
    cases unfinished : w.unfinished (calls call).task with
    | false =>
        rfl
    | true =>
        exact absurd (orderly triage unfinished) declined

theorem stepFail
    (inv : SessionInv calls w)
    (call : Nat)
    (orderly : Orderly calls w (.fail call)) :
    SessionInv calls (w.fail call) := by
  unfold SessionWorld.fail
  split
  · exact inv
  rename_i ready
  have busy : (w.phase call).busy = true := by
    have either : w.phase call ≠ .entered → w.phase call = .cleared := by
      simpa using ready
    by_cases entered : w.phase call = .entered
    · rw [entered]
      rfl
    · rw [either entered]
      rfl
  exact inv.advance busy .declined rfl (fun triage _ => orderly triage)

theorem stepFinish
    (inv : SessionInv calls w)
    (call : Nat)
    (suspended : Bool) :
    SessionInv calls (w.finish calls call suspended) := by
  unfold SessionWorld.finish
  split
  · exact inv
  rename_i ready
  have either : w.phase call ≠ .working → w.phase call = .declined := by
    simpa using ready
  have busy : (w.phase call).busy = true := by
    by_cases working : w.phase call = .working
    · rw [working]
      rfl
    · rw [either working]
      rfl
  split
  · rename_i normal
    exact inv.endNormal (by simpa using normal) (by simp [CallPhase.counted, busy])
  rename_i triage
  have triage : (calls call).triage = true := by
    simpa using triage
  split
  · split
    · refine inv.setPhase call .outside ?_ ?_ ?_
      · intro wrong
        cases wrong
      · intro normal
        rw [triage] at normal
        cases normal
      · intro _ here
        cases here
    · refine inv.endTriage triage busy _ (Function.update_self _ _ _) ?_
      intro task unfinished
      by_cases same : task = (calls call).task
      · subst same
        rw [Function.update_self] at unfinished
        cases unfinished
      · rwa [Function.update_of_ne same] at unfinished
  · rename_i notWorking
    exact inv.endTriage triage busy w.unfinished
      (inv.refused call triage (either notWorking)) (fun _ => id)

theorem step
    (op : SessionOp)
    (inv : SessionInv calls w)
    (orderly : Orderly calls w op) :
    SessionInv calls (w.step calls op) := by
  cases op with
  | beginNormal call =>
      exact inv.stepBeginNormal call
  | beginTriageResume call =>
      exact inv.stepBeginTriageResume call
  | beginTriage call =>
      exact inv.stepBeginTriage call orderly
  | wake call =>
      exact inv.stepWake call orderly
  | abandon call =>
      exact inv.stepAbandon call
  | leak call =>
      exact inv.stepLeak call
  | check call =>
      exact inv.stepCheck call
  | start call lease now =>
      exact inv.stepStart call lease now orderly
  | fail call =>
      exact inv.stepFail call orderly
  | finish call suspended =>
      exact inv.stepFinish call suspended
  | broker op =>
      exact inv.setBroker (w.broker.step op)

end SessionInv

/-- A new session: no flag is set and no call is in progress. -/
def SessionWorld.new (broker : Broker) : SessionWorld where
  session := ⟨0, none, none⟩
  broker := broker
  phase := fun _ => .outside
  unfinished := fun _ => false

theorem SessionInv.new (calls : Nat → SessionCall) (broker : Broker) :
    SessionInv calls (SessionWorld.new broker) := by
  constructor
  · intro call _ busy
    cases busy
  · intro first second _ _ busy
    cases busy
  · intro task unfinished
    cases unfinished
  · intro call _ here
    cases here
  · refine ⟨∅, ?_, rfl⟩
    intro call
    constructor
    · intro member
      exact absurd member (Finset.notMem_empty call)
    · rintro ⟨_, counted⟩
      cases counted
  · intro exclusive
    exact absurd rfl exclusive

/-- A triage task is let in exactly when it has the merge request already, or when nobody has it
and no normal call is in progress. -/
theorem triage_may_run_iff
    {calls : Nat → SessionCall}
    {broker : Broker}
    {w : SessionWorld}
    (run : Reaches (SessionWorld.step calls) (Orderly calls) (SessionWorld.new broker) w)
    (task : TaskId) :
    w.session.triageMayRun task = true ↔
      w.session.exclusiveTaskId = some task ∨
        w.session.exclusiveTaskId = none ∧
          ∀ call, (calls call).triage = false → (w.phase call).counted = false := by
  have inv := run.invariant (SessionInv calls) (fun _ op inv => inv.step op)
    (SessionInv.new calls broker)
  obtain ⟨normals, counts⟩ := inv.normals
  have idle : w.session.normalRunning = 0 ↔
      ∀ call, (calls call).triage = false → (w.phase call).counted = false := by
    rw [counts.number, Finset.card_eq_zero, Finset.eq_empty_iff_forall_notMem]
    simp [counts.member]
  simp [MrSession.triageMayRun, idle]

namespace SessionSample

def review : TaskId := ⟨"session-review", by decide⟩

/-- A repair, a resume of it for a pipeline nobody queued, and a review. -/
def calls : Nat → SessionCall
  | 0 => ⟨Sample.envelope Sample.task .prCommand "/repair-pipeline" "key", .run⟩
  | 1 => ⟨Sample.envelope Sample.task .prCommand "/repair-pipeline" "key",
      .resumePipeline (Sample.success 9 "t")⟩
  | _ => ⟨Sample.envelope review .prCommand "/review" "review", .run⟩

/-- The repair starts, registers its wait and is suspended. -/
def suspends : List SessionOp :=
  [.beginTriage 0, .check 0, .start 0 (some Sample.leaseA) 3,
    .broker (.pipeline (.register Sample.task ⟨"group/project", "abc", "attempt", none⟩ 4)),
    .broker (.task (.transition Sample.task .suspend (some Sample.leaseA) {} 5)),
    .finish 0 true]

end SessionSample

theorem new_session_lets_triage_in :
    (SessionWorld.new Sample.assigned).session.triageMayRun Sample.task = true :=
  (@triage_may_run_iff SessionSample.calls _ _ (Reaches.refl _) _).mpr
    (Or.inr ⟨rfl, fun _ _ => rfl⟩)

end MrAgent
