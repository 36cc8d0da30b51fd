import MrAgent.AdmissionFrame
import MrAgent.FencingToken

namespace MrAgent

open TransitionSystem FencingToken

/-!
# Fencing of merge request leases

Each merge request's lease key and fence counter form a fenced lock. The
broker is run together with the ended ownership periods; each operation
acquires, ends or leaves alone the lock of a given merge request. Since an ended period never becomes current again, a
script that carries its owner and token fails its ownership check, and every
such check precedes the first write of its script.
-/

/-- The broker with the ended ownership periods of each merge request. -/
structure FencedBroker where
  broker : Broker
  ended : MrKey → List (WorkerId × Nat)

namespace FencedBroker

/-- A broker whose ownership history starts empty. -/
def start (s : Broker) : FencedBroker :=
  ⟨s, fun _ => []⟩

/-- One broker operation; a lease value that disappears ends its period. -/
def step (r : FencedBroker) (op : Op) : FencedBroker where
  broker := r.broker.step op
  ended := fun mr =>
    match r.broker.leases mr with
    | none => r.ended mr
    | some period =>
      if (r.broker.step op).leases mr = some period then r.ended mr
      else period :: r.ended mr

/-- The fenced lock of a merge request. -/
def lock (r : FencedBroker) (mr : MrKey) : Lock WorkerId :=
  ⟨r.broker.leases mr, r.broker.fences mr, r.ended mr⟩

/-- All ownership periods of a merge request so far, newest first. -/
def periods (r : FencedBroker) (mr : MrKey) : List (WorkerId × Nat) :=
  (r.lock mr).periods

variable (r : FencedBroker) (mr : MrKey)

variable {op : Op}

theorem step_lock_same
    (leases : (r.broker.step op).leases mr = r.broker.leases mr)
    (fences : (r.broker.step op).fences mr = r.broker.fences mr) :
    (r.step op).lock mr = r.lock mr := by
  cases held : r.broker.leases mr with
  | none =>
      simp [lock, step, leases, fences, held]
  | some period =>
      simp [lock, step, leases, fences, held]

theorem step_lock_drop
    (leases : (r.broker.step op).leases mr = none)
    (fences : (r.broker.step op).fences mr = r.broker.fences mr) :
    (r.step op).lock mr = (r.lock mr).drop := by
  cases held : r.broker.leases mr with
  | none =>
      simp [lock, step, leases, fences, held, Lock.drop, Lock.periods]
  | some period =>
      simp [lock, step, leases, fences, held, Lock.drop, Lock.periods]

theorem step_lock_acquire
    {worker : WorkerId}
    (free : r.broker.leases mr = none)
    (leases :
      (r.broker.step op).leases mr = some (worker, r.broker.fences mr + 1))
    (fences : (r.broker.step op).fences mr = r.broker.fences mr + 1) :
    (r.step op).lock mr = (r.lock mr).acquire worker := by
  simp [lock, step, leases, fences, free, Lock.acquire]

theorem step_lock_delete
    {target : MrKey}
    (leases :
      (r.broker.step op).leases = Function.update r.broker.leases target none)
    (fences : (r.broker.step op).fences = r.broker.fences) :
    (r.step op).lock mr = r.lock mr ∨ (r.step op).lock mr = (r.lock mr).drop := by
  by_cases same : mr = target
  · subst target
    exact Or.inr (step_lock_drop r mr (by simp [leases]) (by simp [fences]))
  · exact Or.inl (step_lock_same r mr (by simp [leases, same]) (by simp [fences]))

theorem step_lock (op : Op) :
    (r.step op).lock mr = r.lock mr ∨
      (∃ worker, (r.step op).lock mr = (r.lock mr).acquire worker) ∨
      (r.step op).lock mr = (r.lock mr).drop := by
  by_cases leaseCall : ∃ leaseOp, op = .lease leaseOp
  · obtain ⟨leaseOp, rfl⟩ := leaseCall
    have deleted :
        ∀ target,
          (r.broker.step (.lease leaseOp)).leases =
              Function.update r.broker.leases target none →
          (r.broker.step (.lease leaseOp)).fences = r.broker.fences →
          (r.step (.lease leaseOp)).lock mr = r.lock mr ∨
            (∃ worker, (r.step (.lease leaseOp)).lock mr = (r.lock mr).acquire worker) ∨
            (r.step (.lease leaseOp)).lock mr = (r.lock mr).drop := by
      intro target leases fences
      rcases step_lock_delete r mr leases fences with same | ended
      · exact Or.inl same
      · exact Or.inr (Or.inr ended)
    cases leaseOp with
    | claim target worker =>
        cases held : r.broker.leases target with
        | some period =>
            refine Or.inl (step_lock_same r mr ?_ ?_)
            · simp [Broker.step, Broker.leaseStep, Broker.claimMr, held]
            · simp [Broker.step, Broker.leaseStep, Broker.claimMr, held]
        | none =>
            by_cases same : mr = target
            · subst target
              refine Or.inr (Or.inl ⟨worker, step_lock_acquire r mr held ?_ ?_⟩)
              · simp [Broker.step, Broker.leaseStep, Broker.claimMr, held]
              · simp [Broker.step, Broker.leaseStep, Broker.claimMr, held]
            · refine Or.inl (step_lock_same r mr ?_ ?_)
              · simp [Broker.step, Broker.leaseStep, Broker.claimMr, held, same]
              · simp [Broker.step, Broker.leaseStep, Broker.claimMr, held, same]
    | renew lease =>
        refine Or.inl (step_lock_same r mr ?_ ?_)
        · simp only [Broker.step, Broker.leaseStep, Broker.renewMr]
          split <;> rfl
        · simp only [Broker.step, Broker.leaseStep, Broker.renewMr]
          split <;> rfl
    | release lease =>
        by_cases held : r.broker.holds lease = true
        · refine deleted lease.mr ?_ ?_
          · simp [Broker.step, Broker.leaseStep, Broker.releaseMr, held]
          · simp [Broker.step, Broker.leaseStep, Broker.releaseMr, held]
        · refine Or.inl (step_lock_same r mr ?_ ?_)
          · simp [Broker.step, Broker.leaseStep, Broker.releaseMr, held]
          · simp [Broker.step, Broker.leaseStep, Broker.releaseMr, held]
    | revoke lease =>
        by_cases missing : r.broker.leases lease.mr = none
        · refine Or.inl (step_lock_same r mr ?_ ?_)
          · simp [Broker.step, Broker.leaseStep, Broker.revokeMr, missing]
          · simp [Broker.step, Broker.leaseStep, Broker.revokeMr, missing]
        · by_cases held : r.broker.holds lease = true
          · refine deleted lease.mr ?_ ?_
            · simp [Broker.step, Broker.leaseStep, Broker.revokeMr, missing, held]
            · simp [Broker.step, Broker.leaseStep, Broker.revokeMr, missing, held]
          · refine Or.inl (step_lock_same r mr ?_ ?_)
            · simp [Broker.step, Broker.leaseStep, Broker.revokeMr, missing, held]
            · simp [Broker.step, Broker.leaseStep, Broker.revokeMr, missing, held]
    | expire target =>
        exact deleted target rfl rfl
  · have kept := Broker.step_leases r.broker op fun leaseOp equal =>
      leaseCall ⟨leaseOp, equal⟩
    exact Or.inl
      (step_lock_same r mr (congrFun kept.1 mr) (congrFun kept.2 mr))

theorem step_wellFenced
    (op : Op)
    (fenced : ∀ mr, (r.lock mr).WellFenced) :
    ∀ mr, ((r.step op).lock mr).WellFenced := by
  intro mr
  rcases step_lock r mr op with same | ⟨worker, acquired⟩ | ended
  · rw [same]
    exact fenced mr
  · rw [acquired]
    exact (fenced mr).acquire worker
  · rw [ended]
    exact (fenced mr).drop

theorem reaches_wellFenced
    {s : Broker}
    (free : ∀ mr, s.leases mr = none)
    {r : FencedBroker}
    (run : Reaches step (fun _ _ => True) (start s) r) :
    ∀ mr, (r.lock mr).WellFenced := by
  refine Reaches.invariant (fun state => ∀ mr, (state.lock mr).WellFenced) ?_ run ?_
  · intro state op fenced _
    exact step_wellFenced state op fenced
  · intro mr
    simpa [lock, start, free mr] using Lock.WellFenced.of_unused (s.fences mr)

end FencedBroker

/-- A call of one of the ten lease-checked scripts, without its lease. -/
inductive LeaseCheckedCall where
  | transitionTask (task : TaskId) (expected : List TaskStatus) (target : TaskStatus)
      (fields : TransitionFields) (now : Time)
  | appendRepairCommit (task : TaskId) (args : AppendArgs) (now : Time)
  | freezeRepairManifest (task : TaskId) (frozenAt : String) (now : Time)
  | claimEffect (key : String) (task : TaskId) (metadata : String) (now : Time)
  | updateEffect (key metadata : String) (now : Time)
  | completeEffect (key : String) (task : TaskId) (result : String) (now : Time)
  | assignTask (task : TaskId) (now : Time)
  | recordAutoCommandCompleted (task : TaskId) (cursor : AutoCursor) (now : Time)
  | pauseAutoForTriage (task triageTask : TaskId) (cursor : AutoCursor) (now : Time)
  | transferOrphanedTask (task : TaskId) (oldWorker : WorkerId) (event : Option PipelineEvent)
      (now : Time)

/-- A manifest reply that is not a refusal. -/
def ManifestReply.success : ManifestReply → Bool
  | .stored _ _ => true
  | _ => false

/-- An effect reply that is not a lost lease. -/
def Broker.EffectReply.success : Broker.EffectReply → Bool
  | .lostLease => false
  | .record _ _ _ => true

namespace LeaseCheckedCall

/-- Run a lease-checked call; the flag says whether it reports success. -/
def run (call : LeaseCheckedCall) (lease : MrLease) (s : Broker) : Broker × Bool :=
  match call with
  | transitionTask task expected target fields now =>
    let result := s.transitionTask task expected target (some lease) fields now
    (result.1, result.2 == 1)
  | appendRepairCommit task args now =>
    let result := s.appendRepairCommitScript task (some lease) args now
    (result.1, result.2.success)
  | freezeRepairManifest task frozenAt now =>
    let result := s.freezeRepairCommitManifest task (some lease) frozenAt now
    (result.1, result.2.success)
  | claimEffect key task metadata now =>
    let result := s.claimEffect key task (some lease) metadata now
    (result.1, result.2.success)
  | updateEffect key metadata now =>
    let result := s.updateEffect key (some lease) metadata now
    (result.1, result.2 == 1)
  | completeEffect key task result now =>
    let result := s.completeEffect key task (some lease) result now
    (result.1, result.2 == 1)
  | assignTask task now =>
    let result := s.assignTask task (some lease) lease.workerId now
    (result.1, result.2 == 1)
  | recordAutoCommandCompleted task cursor now =>
    let result := s.recordAutoCommandCompleted task cursor lease now
    (result.1, result.2 == 1)
  | pauseAutoForTriage task triageTask cursor now =>
    let result := s.pauseAutoForTriage task triageTask cursor lease now
    (result.1, result.2 == 1)
  | transferOrphanedTask task oldWorker event now =>
    let result := s.transferOrphanedTask task oldWorker lease event now
    (result.1, result.2 == 1)

theorem run_of_not_held
    (call : LeaseCheckedCall)
    (lease : MrLease)
    (s : Broker)
    (lost : s.holds lease = false) :
    call.run lease s = (s, false) := by
  cases call with
  | transitionTask task expected target fields now =>
      simp only [run, Broker.transitionTask, Broker.leaseOk, lost]
      split
      · rfl
      · split <;> rfl
  | appendRepairCommit task args now =>
      simp only [run, Broker.appendRepairCommitScript, Broker.appendReply, Broker.leaseOk, lost]
      cases (s.tasks task).exists_ <;> rfl
  | freezeRepairManifest task frozenAt now =>
      simp only [run, Broker.freezeRepairCommitManifest, Broker.leaseOk, lost]
      cases (s.tasks task).exists_ <;> rfl
  | claimEffect key task metadata now =>
      simp [run, Broker.claimEffect, Broker.leaseOk, lost, Broker.EffectReply.success]
  | updateEffect key metadata now =>
      simp [run, Broker.updateEffect, Broker.leaseOk, lost]
  | completeEffect key task result now =>
      simp [run, Broker.completeEffect, Broker.leaseOk, lost]
  | assignTask task now =>
      simp only [run, Broker.assignTask, Broker.leaseOk, lost]
      split <;> rfl
  | recordAutoCommandCompleted task cursor now =>
      simp only [run, Broker.recordAutoCommandCompleted, lost]
      split <;> rfl
  | pauseAutoForTriage task triageTask cursor now =>
      simp only [run, Broker.pauseAutoForTriage, lost]
      split <;> rfl
  | transferOrphanedTask task oldWorker event now =>
      simp only [run, Broker.transferOrphanedTask, lost]
      split <;> rfl

end LeaseCheckedCall

/-- In every run that starts without leases, the tokens of successive ownership periods increase,
and a call with the token of an ended period succeeds in nothing. -/
theorem lease_fencing
    {s : Broker}
    (free : ∀ mr, s.leases mr = none)
    {r : FencedBroker}
    (run : Reaches FencedBroker.step (fun _ _ => True) (FencedBroker.start s) r)
    (mr : MrKey) :
    (r.periods mr).Pairwise (fun newer older => older.2 < newer.2) ∧
      (∀ period, r.broker.leases mr = some period → period.2 ≤ r.broker.fences mr) ∧
      ((r.periods mr).map Prod.snd).Nodup ∧
      ∀ worker token, (worker, token) ∈ r.ended mr →
        ∀ call : LeaseCheckedCall,
          call.run ⟨mr, worker, token⟩ r.broker = (r.broker, false) := by
  have fenced := FencedBroker.reaches_wellFenced free run mr
  refine ⟨fenced.increasing, ?_, fenced.tokens_nodup, ?_⟩
  · intro period held
    exact fenced.holder_bounded held
  · intro worker token past call
    refine call.run_of_not_held ⟨mr, worker, token⟩ r.broker ?_
    have notHeld : r.broker.leases mr ≠ some (worker, token) := fenced.ended_not_held past
    simpa [Broker.holds] using notHeld

/--
Worker `a` claims the merge request and its lease expires before worker `b`
claims it. A late transition under `a`'s token changes nothing.
-/
theorem lease_fencing_after_expiry :
    let mr : MrKey := ⟨"group/project", 7, by decide, by decide⟩
    let a : WorkerId := ⟨"worker-a", by decide⟩
    let b : WorkerId := ⟨"worker-b", by decide⟩
    let task : TaskId := ⟨"task", by decide⟩
    let late : LeaseCheckedCall := .transitionTask task [.running] .completed {} 1
    let r :=
      (((FencedBroker.start Broker.empty).step (.lease (.claim mr a))).step
        (.lease (.expire mr))).step (.lease (.claim mr b))
    r.periods mr = [(b, 2), (a, 1)] ∧ late.run ⟨mr, a, 1⟩ r.broker = (r.broker, false) := by
  intro mr a b task late r
  have run : Reaches FencedBroker.step (fun _ _ => True) (FencedBroker.start Broker.empty) r :=
    (((Reaches.refl _).snoc _ trivial).snoc _ trivial).snoc _ trivial
  refine ⟨rfl, ?_⟩
  exact (lease_fencing (fun _ => rfl) run mr).2.2.2 a 1 (by decide) late

end MrAgent
