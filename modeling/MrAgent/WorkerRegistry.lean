import MrAgent.WorkerDuty

namespace MrAgent

open TransitionSystem

/-!
# The worker registry

A worker's heartbeat writes a hash with a time to live and adds the worker to
the registry set, which has none. The placement pass of the scheduler
(`list_live_workers`) removes a worker from the registry when its hash is
gone; the recovery pass (`list_dead_worker_ids`) finds dead workers only
through the registry.
-/

/-- `WorkerState`, the hash stored under `worker:<id>`. -/
structure WorkerState where
  workerId : WorkerId
  lastSeen : Time
  activeTasks : Nat := 0
  ownedMrs : Nat := 0
  degraded : Bool := false
  activeReportTasks : Nat := 0
deriving DecidableEq

/--
The broker with the worker keys. `missing` has, for each `list_live_workers` in
progress, the worker whose hash was found empty and is about to be removed.
-/
structure Fleet where
  broker : Broker
  registry : List WorkerId
  workers : WorkerId → Option WorkerState
  missing : Nat → Option WorkerId

namespace Fleet

/-- No worker has reported yet. -/
def empty : Fleet where
  broker := Broker.empty
  registry := []
  workers := fun _ => none
  missing := fun _ => none

/-- `heartbeat_worker`, one transaction. -/
def heartbeatWorker (f : Fleet) (state : WorkerState) : Fleet :=
  { f with
    registry := sadd f.registry state.workerId
    workers := Function.update f.workers state.workerId (some state) }

/-- The worker's hash runs out of time. -/
def expireWorker (f : Fleet) (worker : WorkerId) : Fleet :=
  { f with workers := Function.update f.workers worker none }

/-- The worker was seen too long ago. -/
def silent (deadSeconds : Nat) (now : Time) (state : WorkerState) : Bool :=
  decide ((deadSeconds : Time) < now - state.lastSeen)

/-- The loop body of `list_live_workers`. -/
def visitWorker
    (deadSeconds : Nat)
    (now : Time)
    (found : Fleet × List WorkerState)
    (worker : WorkerId) : Fleet × List WorkerState :=
  match found.1.workers worker with
  | none => ({ found.1 with registry := srem found.1.registry worker }, found.2)
  | some state =>
    if silent deadSeconds now state then found else (found.1, found.2 ++ [state])

/-- An uninterrupted call of `list_live_workers`. -/
def listLiveWorkers (f : Fleet) (deadSeconds : Nat) (now : Time) : Fleet × List WorkerState :=
  f.registry.foldl (visitWorker deadSeconds now) (f, [])

/-- One `HGETALL` of an interrupted call of `list_live_workers`. -/
def inspectWorker (f : Fleet) (call : Nat) (worker : WorkerId) : Fleet :=
  { f with
    missing := Function.update f.missing call
      (if (f.workers worker).isNone then some worker else none) }

/-- The `SREM` of an interrupted call of `list_live_workers`. -/
def pruneWorker (f : Fleet) (call : Nat) : Fleet :=
  match f.missing call with
  | none => f
  | some worker =>
    { f with
      registry := srem f.registry worker
      missing := Function.update f.missing call none }

/-- `list_dead_worker_ids`. -/
def listDeadWorkerIds (f : Fleet) (deadSeconds : Nat) (now : Time) : List WorkerId :=
  f.registry.filter fun worker =>
    match f.workers worker with
    | none => true
    | some state => silent deadSeconds now state

end Fleet

/-- A step of a worker, of the scheduler's registry passes, or any broker call. -/
inductive FleetOp where
  | heartbeat (state : WorkerState)
  | expire (worker : WorkerId)
  | listLive (deadSeconds : Nat) (now : Time)
  | inspect (call : Nat) (worker : WorkerId)
  | prune (call : Nat)
  | broker (op : Op)

def Fleet.step (f : Fleet) : FleetOp → Fleet
  | .heartbeat state => f.heartbeatWorker state
  | .expire worker => f.expireWorker worker
  | .listLive deadSeconds now => (f.listLiveWorkers deadSeconds now).1
  | .inspect call worker => f.inspectWorker call worker
  | .prune call => f.pruneWorker call
  | .broker op => { f with broker := f.broker.step op }

/-- The worker has no unfinished task of its own. -/
def Idle (s : Broker) (worker : WorkerId) : Prop :=
  ∀ task, ¬OnDuty s worker task

/--
The condition under which no worker with work is forgotten: only idle workers
leave the registry, and work is handed to registered workers only.
-/
def KeepsRegistered (f : Fleet) : FleetOp → Prop
  | .listLive .. => ∀ worker ∈ f.registry, f.workers worker = none → Idle f.broker worker
  | .prune call => ∀ worker, f.missing call = some worker → Idle f.broker worker
  | .broker op => ∀ worker, op.hands f.broker worker → worker ∈ f.registry
  | _ => True

/-- Every worker with work is registered. -/
def WorkRegistered (f : Fleet) : Prop :=
  ∀ worker task, OnDuty f.broker worker task → worker ∈ f.registry

namespace Fleet

theorem visitWorkers_registry
    (deadSeconds : Nat)
    (now : Time)
    (visited : List WorkerId)
    (found : Fleet × List WorkerState) :
    let after := (visited.foldl (visitWorker deadSeconds now) found).1
    after.broker = found.1.broker ∧ after.workers = found.1.workers ∧
      ∀ worker, worker ∈ found.1.registry → found.1.workers worker ≠ none →
        worker ∈ after.registry := by
  induction visited generalizing found with
  | nil =>
      exact ⟨rfl, rfl, fun _ member _ => member⟩
  | cons first rest ih =>
      have visit : (visitWorker deadSeconds now found first).1.broker = found.1.broker ∧
          (visitWorker deadSeconds now found first).1.workers = found.1.workers ∧
          ∀ worker, worker ∈ found.1.registry → found.1.workers worker ≠ none →
            worker ∈ (visitWorker deadSeconds now found first).1.registry := by
        unfold visitWorker
        split
        · rename_i gone
          refine ⟨rfl, rfl, ?_⟩
          intro worker member present
          rw [mem_srem]
          refine ⟨member, ?_⟩
          rintro rfl
          exact present gone
        · split <;> exact ⟨rfl, rfl, fun _ member _ => member⟩
      obtain ⟨broker, workers, kept⟩ := visit
      obtain ⟨broker', workers', kept'⟩ :=
        ih (visitWorker deadSeconds now found first)
      refine ⟨broker'.trans broker, workers'.trans workers, ?_⟩
      intro worker member present
      exact kept' worker (kept worker member present) (by rw [workers]; exact present)

variable {f : Fleet}

theorem step_workRegistered
    (op : FleetOp)
    (registered : WorkRegistered f)
    (keeps : KeepsRegistered f op) :
    WorkRegistered (f.step op) := by
  intro worker task duty
  cases op with
  | heartbeat state =>
      exact (mem_sadd _ _ _).mpr (Or.inl (registered worker task duty))
  | expire expired =>
      exact registered worker task duty
  | listLive deadSeconds now =>
      obtain ⟨broker, _, kept⟩ := visitWorkers_registry deadSeconds now f.registry (f, [])
      have before : OnDuty f.broker worker task := by
        rw [← broker]
        exact duty
      have member := registered worker task before
      refine kept worker member ?_
      intro gone
      exact keeps worker member gone task before
  | inspect call inspected =>
      exact registered worker task duty
  | prune call =>
      dsimp only [step, pruneWorker] at duty ⊢
      split
      · rename_i none
        rw [none] at duty
        exact registered worker task duty
      · rename_i pruned found
        rw [found] at duty
        have before : OnDuty f.broker worker task := duty
        refine (mem_srem _ _ _).mpr ⟨registered worker task before, ?_⟩
        rintro rfl
        exact keeps worker found task before
  | broker op =>
      by_cases handed : op.hands f.broker worker
      · exact keeps worker handed
      · exact registered worker task ((f.broker.step_workKept op).onDuty handed duty)

theorem mem_listDeadWorkerIds
    {worker : WorkerId}
    (member : worker ∈ f.registry)
    (expired : f.workers worker = none)
    (deadSeconds : Nat)
    (now : Time) :
    worker ∈ f.listDeadWorkerIds deadSeconds now := by
  refine List.mem_filter.mpr ⟨member, ?_⟩
  rw [expired]

end Fleet

/-- While only idle workers leave the registry and only registered ones get work, a worker without
a heartbeat is reported dead as long as it owns work. -/
theorem dead_worker_with_work_listed
    {f : Fleet}
    (run : Reaches Fleet.step KeepsRegistered Fleet.empty f)
    {worker : WorkerId}
    {task : TaskId}
    (expired : f.workers worker = none)
    (duty : OnDuty f.broker worker task)
    (deadSeconds : Nat)
    (now : Time) :
    worker ∈ f.listDeadWorkerIds deadSeconds now := by
  have initial : WorkRegistered Fleet.empty := by
    intro worker task duty
    cases duty.member
  have registered := run.invariant WorkRegistered
    (fun _ op registered keeps => Fleet.step_workRegistered op registered keeps) initial
  exact Fleet.mem_listDeadWorkerIds (registered worker task duty) expired deadSeconds now

namespace RegistrySample

open Sample

/-- Worker A reports, is assigned a repair, and its heartbeat key expires. -/
def lost : List FleetOp :=
  [.heartbeat { workerId := workerA, lastSeen := 1 },
    .broker (.admission (.enqueue ⟨envelope repair .prCommand "/triage" "key", true⟩)),
    .broker (.lease (.claim mr workerA)),
    .broker (.task (.assign repair (some ⟨mr, workerA, 1⟩) workerA 2)),
    .expire workerA]

def before : Fleet :=
  lost.foldl Fleet.step Fleet.empty

theorem before_duty : OnDuty before.broker workerA repair :=
  ⟨by decide, by decide, by decide⟩

end RegistrySample

open RegistrySample in
theorem lost_worker_listed :
    before.workers Sample.workerA = none ∧ Sample.workerA ∈ before.listDeadWorkerIds 30 100 := by
  have expired : before.workers Sample.workerA = none := by decide +kernel
  have run : Reaches Fleet.step KeepsRegistered Fleet.empty
      (lost.foldl Fleet.step Fleet.empty) := by
    refine Reaches.of_follows ⟨trivial, ?_, ?_, ?_, trivial, trivial⟩
    · intro worker handed
      cases handed
    · intro worker handed
      cases handed
    · intro worker handed
      cases handed
      decide +kernel
  exact ⟨expired, dead_worker_with_work_listed run expired before_duty 30 100⟩

open RegistrySample in
/-- One placement pass removes it from the registry, and its repair stays assigned to it. -/
theorem lost_worker_forgotten :
    let after := before.step (.listLive 30 100)
    Reaches Fleet.step (fun _ _ => True) Fleet.empty after ∧
      after.workers Sample.workerA = none ∧ OnDuty after.broker Sample.workerA Sample.repair ∧
      ∀ deadSeconds now, Sample.workerA ∉ after.listDeadWorkerIds deadSeconds now := by
  intro after
  have run : Reaches Fleet.step (fun _ _ => True) Fleet.empty before :=
    Reaches.of_follows ⟨trivial, trivial, trivial, trivial, trivial, trivial⟩
  have removed : after.registry = [] := by decide +kernel
  refine ⟨run.snoc _ trivial, by decide +kernel, ?_, ?_⟩
  · exact ⟨by decide +kernel, by decide +kernel, by decide +kernel⟩
  · intro deadSeconds now listed
    rw [Fleet.listDeadWorkerIds, removed] at listed
    cases listed

/-! ## The scheduler leader -/

/-- `acquire_scheduler_leader`; the key has a holder and a time at which it expires. -/
def acquireSchedulerLeader
    (key : Option (String × Time))
    (schedulerId : String)
    (ttlSeconds : Nat)
    (now : Time) : Option (String × Time) × Bool :=
  match key.filter fun held => now < held.2 with
  | some held =>
    if held.1 = schedulerId then (some (schedulerId, now + ttlSeconds), true) else (key, false)
  | none => (some (schedulerId, now + ttlSeconds), true)

/-- Those of the calls that make their scheduler the leader. -/
def leaderships (ttlSeconds : Nat) : Option (String × Time) → List (String × Time) → List (String × Time)
  | _, [] => []
  | key, call :: rest =>
    let (next, leads) := acquireSchedulerLeader key call.1 ttlSeconds call.2
    (if leads then [call] else []) ++ leaderships ttlSeconds next rest

/-- The calls in the order in which they are made. -/
def InOrder (calls : List (String × Time)) : Prop :=
  calls.Pairwise fun first second => first.2 ≤ second.2

variable {ttlSeconds : Nat} {calls : List (String × Time)}

theorem leader_until
    (ordered : InOrder calls)
    {held : String × Time}
    (recent : ∀ call ∈ calls, held.2 ≤ call.2 + ttlSeconds) :
    ∀ later ∈ leaderships ttlSeconds (some held) calls,
      later ∈ calls ∧ (later.1 = held.1 ∨ held.2 ≤ later.2) := by
  induction calls generalizing held with
  | nil => exact fun _ member => nomatch member
  | cons call rest ih =>
      obtain ⟨after, ordered⟩ := List.pairwise_cons.mp ordered
      intro later member
      have renewed := @ih ordered (call.1, call.2 + ttlSeconds) (by grind) later
      have kept := @ih ordered held (by grind) later
      simp only [leaderships, acquireSchedulerLeader] at member
      grind

/-- Two schedulers lead one after the other, the time to live apart. -/
def TakeTurns (ttlSeconds : Nat) (calls : List (String × Time)) : Prop :=
  calls.Pairwise fun first second => second.1 = first.1 ∨ first.2 + (ttlSeconds : Time) ≤ second.2

theorem leaders_take_turns (key : Option (String × Time)) (ordered : InOrder calls) :
    TakeTurns ttlSeconds (leaderships ttlSeconds key calls) := by
  induction calls generalizing key with
  | nil => exact List.Pairwise.nil
  | cons call rest ih =>
      obtain ⟨after, ordered⟩ := List.pairwise_cons.mp ordered
      have led := @leader_until ttlSeconds rest ordered (call.1, call.2 + ttlSeconds) (by grind)
      have later := ih (acquireSchedulerLeader key call.1 ttlSeconds call.2).1 ordered
      grind [TakeTurns, leaderships, acquireSchedulerLeader]

/-- `B` leads when the key of `A` has expired. -/
theorem leader_replaced_after_ttl :
    TakeTurns 10 (leaderships 10 none [("A", 0), ("B", 9), ("B", 10)]) :=
  leaders_take_turns none (by unfold InOrder; decide +kernel)

end MrAgent
