import MrAgent.PipelineWait

namespace MrAgent

open TransitionSystem

/-!
# Registrations of a superseded worker

A worker whose lease has moved on may still run a task and register a wait.
`register_pipeline_wait_sync` asks for a cancellation and then runs a script
that takes no lease, so the wait state of the task depends on the event cache
only, whoever owns the task by then.
-/

/--
`register_pipeline_wait_sync`: the runtime asks for a cancellation in the
state `checked`, and the script runs later, in the state `s`.
-/
def Broker.registerPipelineWaitSync
    (s checked : Broker)
    (task : TaskId)
    (args : WaitArgs)
    (now : Time) : Broker × Option PipelineEvent :=
  if (checked.tasks task).cancelRequested then (s, none)
  else s.registerPipelineWait task args now

/-- The registration, the attempt id and the resume markers of the task are unchanged. -/
structure WaitStateKept (task : TaskId) (before after : Broker) : Prop where
  pipeline : (after.tasks task).pipeline = (before.tasks task).pipeline
  waiters : ∀ key, task ∈ after.waiters key ↔ task ∈ before.waiters key
  index : after.pipelineWaiting task = before.pipelineWaiting task

/-- The registration is stored already, at the same time and with no resume queued since. -/
structure RegisteredAlready (s : Broker) (task : TaskId) (args : WaitArgs) (now : Time) :
    Prop where
  pipeline : Broker.registeredPipeline args now (s.tasks task).pipeline = (s.tasks task).pipeline
  member : task ∈ s.waiters args.key
  index : s.pipelineWaiting task = some now

/-- The runtime stops before the script, or the script finds a terminal event. -/
def Stopped (checked s : Broker) (task : TaskId) (args : WaitArgs) : Prop :=
  (checked.tasks task).cancelRequested = true ∨
    ((s.events args.key).filter (·.luaTerminal)).isSome = true

namespace Broker

variable (s checked : Broker) (task : TaskId) (args : WaitArgs) (now : Time)

theorem registerPipelineWaitSync_cases :
    (Stopped checked s task args ∧ (s.registerPipelineWaitSync checked task args now).1 = s) ∨
      (¬Stopped checked s task args ∧
        (s.registerPipelineWaitSync checked task args now).1 = s.registered task args now) := by
  unfold registerPipelineWaitSync
  by_cases canceled : (checked.tasks task).cancelRequested = true
  · rw [if_pos canceled]
    exact Or.inl ⟨Or.inl canceled, rfl⟩
  · rw [if_neg canceled]
    cases cached : (s.events args.key).filter (·.luaTerminal) with
    | some event =>
        refine Or.inl ⟨Or.inr (by rw [cached]; rfl), ?_⟩
        simp [registerPipelineWait, cached]
    | none =>
        refine Or.inr ⟨?_, ?_⟩
        · rintro (wrong | found)
          · exact canceled wrong
          · rw [cached] at found
            cases found
        · simp [registerPipelineWait, cached, registered]

theorem registered_kept_iff :
    WaitStateKept task s (s.registered task args now) ↔ RegisteredAlready s task args now := by
  have pipeline := s.registered_pipeline task args now
  have index : (s.registered task args now).pipelineWaiting task = some now := by
    simp [registered]
  constructor
  · intro kept
    refine ⟨pipeline.symm.trans kept.pipeline, ?_, kept.index.symm.trans index⟩
    refine (kept.waiters args.key).mp ?_
    rw [mem_registered]
    exact Or.inr ⟨rfl, rfl⟩
  · intro already
    refine ⟨pipeline.trans already.pipeline, ?_, index.trans already.index.symm⟩
    intro key
    rw [mem_registered]
    constructor
    · rintro (member | ⟨_, rfl⟩)
      · exact member
      · exact already.member
    · exact Or.inl

theorem registered_refuses
    (event : PipelineEvent) (lease : Option MrLease) (later : Time) :
    ((s.registered task args now).claimPipelineResume task event lease later).2 ≠ .claimed := by
  intro accepted
  obtain ⟨_, _, _, _, queued⟩ :=
    ((s.registered task args now).claimPipelineResume_claimed_iff task event lease later).mp
      accepted
  rw [registered_pipeline] at queued
  cases queued

end Broker

/-- A registration leaves the wait state alone exactly when it is stopped or repeats it, and a
pending resume exactly when it is stopped. -/
theorem superseded_registration_kept
    (s checked : Broker) (task : TaskId) (args : WaitArgs) (now : Time) :
    (WaitStateKept task s (s.registerPipelineWaitSync checked task args now).1 ↔
      Stopped checked s task args ∨ RegisteredAlready s task args now) ∧
      ∀ event lease later,
        (s.claimPipelineResume task event lease later).2 = .claimed →
          ((((s.registerPipelineWaitSync checked task args now).1).claimPipelineResume task event
            lease later).2 = .claimed ↔ Stopped checked s task args) := by
  rcases s.registerPipelineWaitSync_cases checked task args now with
    ⟨stopped, same⟩ | ⟨active, written⟩
  · rw [same]
    refine ⟨?_, ?_⟩
    · constructor
      · intro _
        exact Or.inl stopped
      · intro _
        exact ⟨rfl, fun _ => Iff.rfl, rfl⟩
    · intro event lease later pending
      exact ⟨fun _ => stopped, fun _ => pending⟩
  · rw [written]
    refine ⟨?_, ?_⟩
    · rw [s.registered_kept_iff task args now]
      constructor
      · exact Or.inr
      · intro either
        exact either.resolve_left active
    · intro event lease later _
      constructor
      · intro accepted
        exact absurd accepted (s.registered_refuses task args now event lease later)
      · intro stopped
        exact absurd stopped active

namespace SupersededSample

def leaseB : MrLease := ⟨Sample.mr, Sample.workerB, 2⟩

/-- Worker A loses its lease, the task is recovered and assigned to worker B, which waits for a
commit of its own, and its resume message is queued. -/
def handedOver : Broker :=
  ([.lease (.expire Sample.mr),
    .task (.recoverDead Sample.workerA Sample.task 3 4),
    .lease (.claim Sample.mr Sample.workerB),
    .task (.assign Sample.task (some leaseB) Sample.workerB 5),
    .task (.transition Sample.task .start (some leaseB) {} 6),
    .pipeline (.register Sample.task ⟨"group/project", "abc", "attempt-b", none⟩ 7),
    .task (.transition Sample.task .suspend (some leaseB) {} 8),
    .pipeline (.publish (Sample.success 7 "t"))] : List Op).foldl Broker.step Sample.started

/-- What worker A registers: a commit whose pipeline has not ended. -/
def lateWait : WaitArgs := ⟨"group/project", "def", "attempt-a", none⟩

end SupersededSample

open SupersededSample in
theorem ended_commit_registered_late :
    handedOver.holds ⟨Sample.mr, Sample.workerA, 1⟩ = false ∧
      (((handedOver.registerPipelineWaitSync handedOver Sample.task
        ⟨"group/project", "abc", "attempt-a", none⟩ 9).1).claimPipelineResume Sample.task
          (Sample.success 7 "t") (some leaseB) 10).2 = .claimed := by
  have stopped : Stopped handedOver handedOver Sample.task
      ⟨"group/project", "abc", "attempt-a", none⟩ :=
    Or.inr (by decide +kernel)
  have pending : (handedOver.claimPipelineResume Sample.task (Sample.success 7 "t")
      (some leaseB) 10).2 = .claimed := by
    decide +kernel
  obtain ⟨_, acceptable⟩ := superseded_registration_kept handedOver handedOver Sample.task
    ⟨"group/project", "abc", "attempt-a", none⟩ 9
  exact ⟨by decide +kernel, (acceptable _ _ _ pending).mpr stopped⟩

open SupersededSample in
/-- Worker A registers another commit after it lost its lease, and worker B's resume is lost. -/
theorem superseded_worker_unsettles_wait :
    Reaches Broker.step (fun _ _ => True) Sample.started handedOver ∧
      Sample.started.holds ⟨Sample.mr, Sample.workerA, 1⟩ = true ∧
      handedOver.holds leaseB = true ∧
      (handedOver.claimPipelineResume Sample.task (Sample.success 7 "t") (some leaseB) 10).2 =
        .claimed ∧
      ¬WaitStateKept Sample.task handedOver
        (handedOver.registerPipelineWaitSync handedOver Sample.task lateWait 9).1 ∧
      (((handedOver.registerPipelineWaitSync handedOver Sample.task lateWait
        9).1).claimPipelineResume Sample.task (Sample.success 7 "t") (some leaseB) 10).2 =
          .stale := by
  refine ⟨?_, by decide +kernel, by decide +kernel, by decide +kernel, ?_, by decide +kernel⟩
  · exact Reaches.of_follows
      ⟨trivial, trivial, trivial, trivial, trivial, trivial, trivial, trivial, trivial⟩
  · intro kept
    have attempt := congrArg PipelineFields.attemptId kept.pipeline
    exact absurd attempt (by decide +kernel)

end MrAgent
