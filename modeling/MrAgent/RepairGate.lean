import MrAgent.AdmissionFrame

namespace MrAgent

open TransitionSystem

/-!
# Exclusivity of the triage gate

Every stored, unfinished repair of a merge request holds the gate of that
merge request, so there is at most one. Scripts that end tasks clear a gate only
behind a dead holder, and an admission hands it on only when its holder is dead.
The latter needs the request's deduplication key not to name a task that the
script would recover, or forget, without looking at the gate.
-/

/-- The task takes the triage gate of its merge request. -/
def TaskEnvelope.repair (envelope : TaskEnvelope) : Bool :=
  isTriageTask envelope || envelope.kind == .postRepairUt || envelope.kind == .repairRollback

/-- The task is a stored, unfinished repair of the merge request. -/
def RepairOf (s : Broker) (mr : MrKey) (task : TaskId) : Prop :=
  (s.tasks task).live = true ∧
    ∃ envelope, (s.tasks task).payload = some envelope ∧ envelope.mr = some mr ∧
      envelope.repair = true

/--
Stored payloads come with a status, gates name stored tasks, and every
unfinished repair holds the gate of its merge request.
-/
structure GateInv (s : Broker) : Prop where
  stored : ∀ task, (s.tasks task).payload.isSome = true → (s.tasks task).status.isSome = true
  holders : ∀ scope holder, s.gates scope = some holder →
    (s.tasks holder).payload.isSome = true
  exclusive : ∀ mr task, RepairOf s mr task → s.gates (some mr) = some task

/-- A task kept its payload and a status, and did not come back from a terminal one. -/
structure TaskLasts (before after : TaskHash) : Prop where
  payload : after.payload = before.payload
  stored : before.status.isSome = true → after.status.isSome = true
  terminal : before.terminal = true → after.terminal = true

variable {before after : TaskHash}

theorem TaskKept.lasts
    (kept : TaskKept before after) :
    TaskLasts before after :=
  ⟨kept.payload, kept.stored, kept.terminal⟩

theorem TaskLasts.trans
    {first middle last : TaskHash}
    (left : TaskLasts first middle)
    (right : TaskLasts middle last) :
    TaskLasts first last :=
  ⟨right.payload.trans left.payload, right.stored ∘ left.stored,
    right.terminal ∘ left.terminal⟩

theorem TaskLasts.live
    (lasts : TaskLasts before after)
    {envelope : TaskEnvelope}
    (payload : after.payload = some envelope)
    (live : after.live = true) :
    before.live = true := by
  have present : before.exists_ = true := by
    rw [TaskHash.exists_, decide_eq_true_eq]
    intro empty
    rw [lasts.payload, empty] at payload
    cases payload
  have unfinished : before.terminal = false := by
    cases ended : before.terminal with
    | false =>
        rfl
    | true =>
        simp [TaskHash.live, lasts.terminal ended] at live
  simp [TaskHash.live, present, unfinished]

/-- A task was written afresh and, if it is a repair, holds its gate. -/
def TookGate (task : TaskId) (after : Broker) : Prop :=
  ∃ envelope, (after.tasks task).payload = some envelope ∧
    (after.tasks task).status.isSome = true ∧
    ∀ mr, envelope.mr = some mr → envelope.repair = true → after.gates (some mr) = some task

/--
Every task lasts or was written afresh, and a gate moves only away from a
holder that is not live on both sides of the step.
-/
structure GateStep (before after : Broker) : Prop where
  tasks : ∀ task, TaskLasts (before.tasks task) (after.tasks task) ∨ TookGate task after
  gates : ∀ scope holder, before.gates scope = some holder →
    (before.tasks holder).live = true → (after.tasks holder).live = true →
    after.gates scope = some holder
  holders : ∀ scope holder, after.gates scope = some holder →
    before.gates scope = some holder ∨ (after.tasks holder).payload.isSome = true

theorem GateInv.step
    {before after : Broker}
    (inv : GateInv before)
    (step : GateStep before after) :
    GateInv after where
  stored := by
    intro task payload
    rcases step.tasks task with lasts | ⟨envelope, _, stored, _⟩
    · rw [lasts.payload] at payload
      exact lasts.stored (inv.stored task payload)
    · exact stored
  holders := by
    intro scope holder held
    rcases step.holders scope holder held with earlier | payload
    · rcases step.tasks holder with lasts | ⟨envelope, payload, _⟩
      · rw [lasts.payload]
        exact inv.holders scope holder earlier
      · rw [payload]
        rfl
    · exact payload
  exclusive := by
    rintro mr task ⟨live, envelope, payload, mrEq, repair⟩
    rcases step.tasks task with lasts | ⟨written, writtenPayload, _, took⟩
    · have liveBefore := lasts.live payload live
      have earlier : RepairOf before mr task :=
        ⟨liveBefore, envelope, lasts.payload ▸ payload, mrEq, repair⟩
      exact step.gates (some mr) task (inv.exclusive mr task earlier) liveBefore live
    · rw [writtenPayload] at payload
      cases payload
      exact took mr mrEq repair

namespace GateStep

variable {before after : Broker}

theorem of_settles
    (settles : Settles before after) :
    GateStep before after where
  tasks := fun task => Or.inl (settles.tasks task).lasts
  gates := by
    intro scope holder held _ live
    rcases settles.gates scope with same | ⟨_, dead⟩
    · rw [same, held]
    · rw [dead holder held] at live
      cases live
  holders := by
    intro scope holder held
    rcases settles.gates scope with same | ⟨cleared, _⟩
    · exact Or.inl (same ▸ held)
    · rw [cleared] at held
      cases held

theorem of_finishes
    {task : TaskId}
    (finishes : Finishes task before after) :
    GateStep before after where
  tasks := by
    intro other
    by_cases same : other = task
    · subst other
      exact Or.inl ⟨finishes.payload, finishes.stored, finishes.terminal⟩
    · exact Or.inl (finishes.others other same).lasts
  gates := by
    intro scope holder held _ _
    rw [finishes.gates, held]
  holders := by
    intro scope holder held
    rw [finishes.gates] at held
    exact Or.inl held

theorem of_frame
    (tasks : ∀ task, TaskLasts (before.tasks task) (after.tasks task))
    (gates : after.gates = before.gates) :
    GateStep before after where
  tasks := fun task => Or.inl (tasks task)
  gates := by
    intro scope holder held _ _
    rw [gates, held]
  holders := by
    intro scope holder held
    rw [gates] at held
    exact Or.inl held

end GateStep

/--
An admission: tasks last or are written afresh, and a gate with a live holder
does not move at all.
-/
structure AdmissionStep (before after : Broker) : Prop where
  tasks : ∀ task, TaskLasts (before.tasks task) (after.tasks task) ∨ TookGate task after
  gates : ∀ scope holder, before.gates scope = some holder →
    (before.tasks holder).live = true → after.gates scope = some holder
  holders : ∀ scope holder, after.gates scope = some holder →
    before.gates scope = some holder ∨ (after.tasks holder).payload.isSome = true

namespace AdmissionStep

variable {before middle after : Broker}

theorem gateStep
    (step : AdmissionStep before after) :
    GateStep before after :=
  ⟨step.tasks, fun scope holder held live _ => step.gates scope holder held live, step.holders⟩

theorem of_keeps
    (keeps : Keeps before after)
    (gates : after.gates = before.gates) :
    AdmissionStep before after where
  tasks := fun task => Or.inl (keeps.tasks task).lasts
  gates := by
    intro scope holder held _
    rw [gates, held]
  holders := by
    intro scope holder held
    rw [gates] at held
    exact Or.inl held

theorem refl (s : Broker) : AdmissionStep s s :=
  of_keeps (Keeps.refl s) rfl

variable (scope : MrScope)

theorem of_handover
    {candidate : TaskId}
    (keeps : Keeps before after)
    (gates : after.gates = Function.update before.gates scope (some candidate))
    (payload : (before.tasks candidate).payload.isSome = true)
    (free : ∀ holder, before.gates scope = some holder →
      (before.tasks holder).live = true → candidate = holder) :
    AdmissionStep before after where
  tasks := fun task => Or.inl (keeps.tasks task).lasts
  gates := by
    intro other holder held live
    rw [gates]
    by_cases same : other = scope
    · subst other
      simp [free holder held live]
    · simp [same, held]
  holders := by
    intro other holder held
    rw [gates] at held
    by_cases same : other = scope
    · subst other
      simp only [Function.update_self, Option.some.injEq] at held
      subst holder
      rw [(keeps.tasks candidate).payload]
      exact Or.inr payload
    · simp only [Function.update_of_ne same] at held
      exact Or.inl held

theorem after_keeps
    (keeps : Keeps before middle)
    (gates : ∀ scope holder, before.gates scope = some holder →
      (before.tasks holder).live = true →
      middle.gates scope = some holder ∧ (middle.tasks holder).live = true)
    (holders : ∀ scope holder, middle.gates scope = some holder →
      before.gates scope = some holder)
    (step : AdmissionStep middle after) :
    AdmissionStep before after where
  tasks := by
    intro task
    rcases step.tasks task with lasts | took
    · exact Or.inl ((keeps.tasks task).lasts.trans lasts)
    · exact Or.inr took
  gates := by
    intro scope holder held live
    obtain ⟨stillHeld, stillLive⟩ := gates scope holder held live
    exact step.gates scope holder stillHeld stillLive
  holders := by
    intro scope holder held
    rcases step.holders scope holder held with earlier | payload
    · exact Or.inl (holders scope holder earlier)
    · exact Or.inr payload

theorem after_release
    (keeps : Keeps before middle)
    (unchanged : ∀ scope holder, before.gates scope = some holder →
      middle.tasks holder = before.tasks holder)
    (gates : middle.gates = Function.update before.gates scope none)
    (dead : ∀ holder, before.gates scope = some holder → (before.tasks holder).live = false)
    (step : AdmissionStep middle after) :
    AdmissionStep before after := by
  refine after_keeps keeps ?_ ?_ step
  · intro other holder held live
    by_cases same : other = scope
    · subst other
      rw [dead holder held] at live
      cases live
    · rw [unchanged other holder held]
      exact ⟨by simpa [gates, same] using held, live⟩
  · intro other holder held
    by_cases same : other = scope
    · subst other
      simp [gates] at held
    · simpa [gates, same] using held

theorem then_frame
    (step : AdmissionStep before middle)
    (tasks : after.tasks = middle.tasks)
    (gates : after.gates = middle.gates) :
    AdmissionStep before after := by
  refine ⟨?_, ?_, ?_⟩
  · simpa only [TookGate, tasks, gates] using step.tasks
  · simpa only [gates] using step.gates
  · simpa only [tasks, gates] using step.holders

theorem startTask
    (s : Broker)
    (envelope : TaskEnvelope)
    (context : AdmissionContext)
    (priority : Bool)
    (gated : envelope.repair = true → priority = true)
    (free : priority = true → ∀ holder, s.gates envelope.mr = some holder →
      (s.tasks holder).live = false) :
    AdmissionStep s (s.startTask envelope context priority) where
  tasks := by
    intro task
    by_cases same : task = envelope.taskId
    · subst task
      refine Or.inr ⟨envelope, ?_, ?_, ?_⟩
      · simp [enqueuedTask, preparedTask]
      · simp [enqueuedTask, preparedTask]
      · intro mr mrEq repair
        simp [gated repair, mrEq]
    · refine Or.inl ?_
      simpa [same] using (TaskKept.refl (s.tasks task)).lasts
  gates := by
    intro scope holder held live
    cases priority with
    | false =>
        simpa using held
    | true =>
        by_cases same : scope = envelope.mr
        · subst scope
          rw [free rfl holder held] at live
          cases live
        · simpa [same] using held
  holders := by
    intro scope holder held
    cases priority with
    | false =>
        exact Or.inl (by simpa using held)
    | true =>
        by_cases same : scope = envelope.mr
        · subst scope
          simp only [Broker.startTask_gates, if_true, Function.update_self,
            Option.some.injEq] at held
          subst holder
          exact Or.inr (by simp [enqueuedTask, preparedTask])
        · exact Or.inl (by simpa [same] using held)

end AdmissionStep

/-- The admission of the task stopped after its hash was written. -/
def TaskHash.halfAdmitted (task : TaskHash) : Bool :=
  task.live && task.admissionIncomplete

/-- The request does not reach past a live gate holder: a repair takes the gate, and meanwhile the
deduplication key names no other task that the script recovers, or forgets, first. -/
def RespectsGate (s : Broker) : Op → Prop
  | .admission (.enqueue args) =>
    (args.envelope.repair = true → args.priority = true) ∧
      (args.priority = true → ∀ holder known, s.gates args.scope = some holder →
        (s.tasks holder).live = true →
        s.dedup args.envelope.idempotencyKey = some known →
        known = holder ∨ (s.tasks known).halfAdmitted = false)
  | .admission (.enqueueWithCard args) =>
    (args.envelope.repair = true → args.priority = true) ∧
      (args.priority = true → args.category ≠ "" → ∀ holder known,
        s.gates args.scope = some holder → (s.tasks holder).live = true →
        s.dedup args.envelope.idempotencyKey = some known →
        known = holder ∨
          ((s.tasks known).live = true ∧ (s.tasks known).admissionIncomplete = false))
  | _ => True

namespace Broker

variable {s : Broker}

theorem inspectOrRecover_cases (args : EnqueueArgs) (task : TaskId) :
    (∃ after, s.inspectOrRecover args task = (after, .stale) ∧ Quiet s after ∧
        ((s.tasks task).live = false ∨ (s.tasks task).payload = none) ∧
        ∀ other, (s.tasks other).payload.isSome = true → after.tasks other = s.tasks other) ∨
      s.inspectOrRecover args task = (s, .healthy) ∨
      (∃ after, s.inspectOrRecover args task = (after, .recovered) ∧ Keeps s after ∧
        (s.tasks task).halfAdmitted = true ∧ (s.tasks task).payload.isSome = true ∧
        after.gates =
          if args.priority then Function.update s.gates args.scope (some task) else s.gates) := by
  have keeps := inspectOrRecover_keeps s args task
  unfold inspectOrRecover at keeps ⊢
  dsimp only at keeps ⊢
  split
  · rename_i missing
    refine Or.inl ⟨s, rfl, Quiet.refl s, Or.inl ?_, fun _ _ => rfl⟩
    simp only [Bool.or_eq_true, Bool.not_eq_true'] at missing
    rcases missing with absent | ended
    · simp [TaskHash.live, absent]
    · simp [TaskHash.live, ended]
  rename_i found
  have live : (s.tasks task).live = true := by
    simp only [Bool.or_eq_true, Bool.not_eq_true', not_or, Bool.not_eq_false,
      Bool.not_eq_true] at found
    simp [TaskHash.live, found]
  rw [if_neg found] at keeps
  split
  · rename_i incomplete
    rw [if_pos incomplete] at keeps
    split
    · rename_i noPayload
      rw [if_pos noPayload] at keeps
      refine Or.inl ⟨_, rfl, ⟨keeps, rfl⟩, Or.inr noPayload, ?_⟩
      intro other payload
      have different : other ≠ task := by
        rintro rfl
        rw [noPayload] at payload
        cases payload
      simp [different]
    · rename_i payload
      rw [if_neg payload] at keeps
      refine Or.inr (Or.inr ⟨_, rfl, keeps, ?_, Option.isSome_iff_ne_none.mpr payload, ?_⟩)
      · simp [TaskHash.halfAdmitted, live, incomplete]
      · cases args.priority <;> rfl
  · exact Or.inr (Or.inl rfl)

variable (args : EnqueueArgs)

theorem enqueueBehindGate_step
    (inv : GateInv s)
    (gated : args.envelope.repair = true → args.priority = true) :
    AdmissionStep s (s.enqueueBehindGate args).1 := by
  unfold enqueueBehindGate
  dsimp only
  split
  · rename_i unprioritized
    refine AdmissionStep.startTask s args.envelope args.context args.priority gated ?_
    intro priority
    simp [priority] at unprioritized
  · cases held : s.gates args.scope with
    | none =>
        refine AdmissionStep.startTask s args.envelope args.context args.priority gated ?_
        intro _ holder other
        rw [EnqueueArgs.scope] at held
        rw [held] at other
        cases other
    | some active =>
        dsimp only
        rcases inspectOrRecover_cases args active with
          ⟨after, result, quiet, dead, same⟩ | result | ⟨after, result, keeps, _, payload, gates⟩
        · rw [result]
          dsimp only
          have activeDead : (s.tasks active).live = false := by
            refine dead.resolve_right ?_
            intro noPayload
            have payload := inv.holders args.scope active held
            rw [noPayload] at payload
            cases payload
          split
          · have freed : Keeps s (after.setGate args.scope none) :=
              quiet.toKeeps.then_frame rfl rfl rfl
            refine AdmissionStep.after_release args.scope freed ?_ ?_ ?_
              (AdmissionStep.startTask _ args.envelope args.context args.priority gated ?_)
            · intro scope holder other
              exact same holder (inv.holders scope holder other)
            · rw [Broker.setGate_gates, quiet.gates]
            · intro holder other
              rw [held] at other
              cases other
              exact activeDead
            · intro _ holder other
              simp [EnqueueArgs.scope] at other
          · exact AdmissionStep.of_keeps (quiet.toKeeps.then_frame rfl rfl rfl) quiet.gates
        · rw [result]
          exact AdmissionStep.of_keeps (Keeps.of_frame rfl rfl rfl) rfl
        · rw [result]
          refine AdmissionStep.of_keeps (keeps.then_frame rfl rfl rfl) ?_
          -- The recovery writes the gate's own holder back.
          rw [Broker.setDedup_gates, gates, ← held, Function.update_eq_self, ite_self]

theorem enqueueTask_step
    (inv : GateInv s)
    (respects : RespectsGate s (.admission (.enqueue args))) :
    AdmissionStep s (s.enqueueTask args).1 := by
  obtain ⟨gated, key⟩ := respects
  unfold enqueueTask
  cases known : s.dedup args.envelope.idempotencyKey with
  | none =>
      exact enqueueBehindGate_step args inv gated
  | some existing =>
      dsimp only
      rcases inspectOrRecover_cases args existing with
        ⟨after, result, quiet, dead, same⟩ | result | ⟨after, result, keeps, half, payload, gates⟩
      · rw [result]
        dsimp only
        have forgotten : Quiet s (after.setDedup args.envelope.idempotencyKey none) :=
          quiet.trans (Quiet.of_frame rfl rfl rfl rfl)
        have soundAfter : GateInv (after.setDedup args.envelope.idempotencyKey none) :=
          inv.step (GateStep.of_settles forgotten.settles)
        refine AdmissionStep.after_keeps forgotten.toKeeps ?_ ?_
          (enqueueBehindGate_step args soundAfter gated)
        · intro scope holder held live
          refine ⟨by rw [forgotten.gates, held], ?_⟩
          have unchanged := same holder (inv.holders scope holder held)
          rw [Broker.setDedup_tasks, unchanged]
          exact live
        · intro scope holder held
          rw [forgotten.gates] at held
          exact held
      · rw [result]
        exact AdmissionStep.refl s
      · rw [result]
        cases priority : args.priority with
        | false =>
            exact AdmissionStep.of_keeps keeps (by simpa [priority] using gates)
        | true =>
            rw [priority, if_pos rfl] at gates
            refine AdmissionStep.of_handover args.scope keeps gates payload ?_
            intro holder held live
            rcases key priority holder existing held live known with same | whole
            · exact same
            · rw [whole] at half
              cases half

variable (args : CardEnqueueArgs)

theorem admitFresh_step
    (gated : args.envelope.repair = true → args.priority = true)
    (free : args.priority = true → ∀ holder, s.gates args.scope = some holder →
      (s.tasks holder).live = false) :
    AdmissionStep s (s.admitFresh args).1 := by
  unfold admitFresh
  dsimp only
  split
  · exact AdmissionStep.refl s
  split
  · exact AdmissionStep.refl s
  · rename_i items _
    have created : AdmissionStep s (s.startTask args.envelope args.context args.priority) :=
      AdmissionStep.startTask s args.envelope args.context args.priority gated free
    dsimp only
    rw [freshAdmission_eq]
    exact created.then_frame rfl rfl

variable (candidate : TaskId)

theorem admitCandidate_step
    (incomplete : Bool)
    (payload : (s.tasks candidate).payload.isSome = true)
    (free : args.priority = true → incomplete = true → ∀ holder,
      s.gates args.scope = some holder → (s.tasks holder).live = true → candidate = holder) :
    AdmissionStep s (s.admitCandidate args candidate incomplete).1 := by
  have completed :
      AdmissionStep s (if incomplete then s.completeCandidate args candidate else s) := by
    cases incomplete with
    | false =>
        exact AdmissionStep.refl s
    | true =>
        have keeps := completeCandidate_keeps s args candidate
        rw [if_pos rfl]
        cases priority : args.priority with
        | false =>
            refine AdmissionStep.of_keeps keeps ?_
            simp [completeCandidate, priority]
        | true =>
            refine AdmissionStep.of_handover args.scope keeps ?_ payload
              (free priority rfl)
            simp [completeCandidate, priority]
  unfold admitCandidate
  dsimp only
  split
  · exact AdmissionStep.refl s
  split
  · exact AdmissionStep.refl s
  · dsimp only
    split
    · exact completed.then_frame rfl rfl
    · exact completed.then_frame rfl rfl

theorem inspectCandidate_cases (args : CardEnqueueArgs) (stored : TaskHash) :
    (inspectCandidate args stored = .stale ∧ stored.live = false) ∨
      inspectCandidate args stored = .conflict ∨
      (inspectCandidate args stored = .incomplete ∧ stored.payload.isSome = true ∧
        stored.admissionIncomplete = true) ∨
      (inspectCandidate args stored = .healthy ∧ stored.payload.isSome = true) := by
  unfold inspectCandidate
  split
  · rename_i missing
    refine Or.inl ⟨rfl, ?_⟩
    simp only [Bool.or_eq_true, Bool.not_eq_true'] at missing
    rcases missing with absent | ended
    · simp [TaskHash.live, absent]
    · simp [TaskHash.live, ended]
  · cases payload : stored.payload with
    | none =>
        exact Or.inr (Or.inl rfl)
    | some envelope =>
        dsimp only
        split
        · exact Or.inr (Or.inl rfl)
        split
        · exact Or.inr (Or.inl rfl)
        split
        · rename_i incomplete
          exact Or.inr (Or.inr (Or.inl ⟨rfl, rfl, incomplete⟩))
        · exact Or.inr (Or.inr (Or.inr ⟨rfl, rfl⟩))

theorem forgetCandidate_gates (args : CardEnqueueArgs) (candidate : TaskId) :
    (s.forgetCandidate args candidate).gates = s.gates ∨
      (s.gates args.scope = some candidate ∧
        (s.forgetCandidate args candidate).gates =
          Function.update s.gates args.scope none) := by
  unfold forgetCandidate
  dsimp only
  split
  · split
    · rename_i cleared
      simp only [setDedup_gates, setDedup_pausedAuto, Bool.and_eq_true,
        decide_eq_true_eq] at cleared
      exact Or.inr ⟨cleared.1, rfl⟩
    · exact Or.inl rfl
  · split
    · rename_i cleared
      simp only [Bool.and_eq_true, decide_eq_true_eq] at cleared
      exact Or.inr ⟨cleared.1, rfl⟩
    · exact Or.inl rfl

theorem forgetCandidate_tasks (args : CardEnqueueArgs) (candidate : TaskId) :
    (s.forgetCandidate args candidate).tasks = s.tasks := by
  unfold forgetCandidate
  dsimp only
  repeat' split
  all_goals rfl

theorem admitForgotten_step
    (gated : args.envelope.repair = true → args.priority = true)
    (dead : (s.tasks candidate).live = false)
    (free : args.priority = true → ∀ holder, s.gates args.scope = some holder →
      (s.tasks holder).live = false) :
    AdmissionStep s ((s.forgetCandidate args candidate).admitFresh args).1 := by
  have tasks := forgetCandidate_tasks (s := s) args candidate
  have keeps := forgetCandidate_keeps s args candidate
  rcases forgetCandidate_gates (s := s) args candidate with same | ⟨held, cleared⟩
  · have fresh : AdmissionStep (s.forgetCandidate args candidate)
        ((s.forgetCandidate args candidate).admitFresh args).1 := by
      refine admitFresh_step args gated ?_
      rw [same, tasks]
      exact free
    refine AdmissionStep.after_keeps keeps ?_ ?_ fresh
    · intro scope holder holds live
      rw [same, tasks]
      exact ⟨holds, live⟩
    · intro scope holder holds
      rw [same] at holds
      exact holds
  · have fresh : AdmissionStep (s.forgetCandidate args candidate)
        ((s.forgetCandidate args candidate).admitFresh args).1 := by
      refine admitFresh_step args gated ?_
      intro _ holder holds
      simp [cleared] at holds
    refine AdmissionStep.after_release args.scope keeps ?_ cleared ?_ fresh
    · intro scope holder _
      rw [tasks]
    · intro holder holds
      rw [held] at holds
      cases holds
      exact dead

theorem cardCandidate_some
    {args : CardEnqueueArgs}
    {candidate : TaskId}
    (found : s.cardCandidate args = some candidate) :
    s.dedup args.envelope.idempotencyKey = some candidate ∨
      s.gates args.scope = some candidate := by
  unfold cardCandidate at found
  cases known : s.dedup args.envelope.idempotencyKey with
  | some existing =>
      rw [known] at found
      exact Or.inl found
  | none =>
      rw [known] at found
      cases priority : args.priority with
      | false =>
          simp [priority] at found
      | true =>
          exact Or.inr (by simpa [priority] using found)

theorem cardCandidate_none
    {args : CardEnqueueArgs}
    (missing : s.cardCandidate args = none)
    (priority : args.priority = true) :
    s.gates args.scope = none := by
  unfold cardCandidate at missing
  cases known : s.dedup args.envelope.idempotencyKey with
  | some existing =>
      simp [known] at missing
  | none =>
      simpa [known, priority] using missing

theorem enqueueCategory_step
    (category : args.category ≠ "")
    (respects : RespectsGate s (.admission (.enqueueWithCard args))) :
    AdmissionStep s (s.enqueueCategory args).1 := by
  obtain ⟨gated, key⟩ := respects
  unfold enqueueCategory
  split
  · exact AdmissionStep.refl s
  split
  · exact AdmissionStep.refl s
  cases found : s.cardCandidate args with
  | none =>
      refine admitFresh_step args gated ?_
      intro priority holder held
      rw [cardCandidate_none found priority] at held
      cases held
  | some candidate =>
      dsimp only
      -- A live holder of the gate is the candidate, or the candidate is whole.
      have alternatives :
          args.priority = true → ∀ holder, s.gates args.scope = some holder →
            (s.tasks holder).live = true →
            candidate = holder ∨ ((s.tasks candidate).live = true ∧
              (s.tasks candidate).admissionIncomplete = false) := by
        intro priority holder held live
        rcases cardCandidate_some found with known | holds
        · exact key priority category holder candidate held live known
        · rw [held] at holds
          cases holds
          exact Or.inl rfl
      rcases inspectCandidate_cases args (s.tasks candidate) with
        ⟨result, dead⟩ | result | ⟨result, payload, incomplete⟩ | ⟨result, payload⟩
      · rw [result]
        refine admitForgotten_step args candidate gated dead ?_
        intro priority holder held
        cases live : (s.tasks holder).live with
        | false =>
            rfl
        | true =>
            rcases alternatives priority holder held live with same | ⟨candidateLive, _⟩
            · rw [← same, dead] at live
              cases live
            · rw [dead] at candidateLive
              cases candidateLive
      · rw [result]
        exact AdmissionStep.refl s
      · rw [result]
        refine admitCandidate_step args candidate true payload ?_
        intro priority _ holder held live
        rcases alternatives priority holder held live with same | ⟨_, whole⟩
        · exact same
        · rw [incomplete] at whole
          cases whole
      · rw [result]
        refine admitCandidate_step args candidate false payload ?_
        intro _ impossible
        cases impossible

theorem enqueueUncategorized_step
    (gated : args.envelope.repair = true → args.priority = true)
    (free : args.priority = true → ∀ holder, s.gates args.scope = some holder →
      (s.tasks holder).live = false) :
    AdmissionStep s (s.enqueueUncategorized args).1 := by
  unfold enqueueUncategorized
  split
  · exact AdmissionStep.of_keeps (Keeps.of_frame rfl rfl rfl) rfl
  · have created : AdmissionStep s (s.startTask args.envelope args.context args.priority) :=
      AdmissionStep.startTask s args.envelope args.context args.priority gated free
    exact created.then_frame rfl rfl

theorem enqueueWithoutCategory_step
    (inv : GateInv s)
    (gated : args.envelope.repair = true → args.priority = true) :
    AdmissionStep s (s.enqueueWithoutCategory args).1 := by
  unfold enqueueWithoutCategory
  dsimp only
  split
  · exact AdmissionStep.of_keeps (Keeps.of_frame rfl rfl rfl) rfl
  split
  · rename_i unprioritized
    refine enqueueUncategorized_step args gated ?_
    intro priority
    simp [priority] at unprioritized
  cases held : s.gates args.scope with
  | none =>
      refine enqueueUncategorized_step args gated ?_
      intro _ holder other
      rw [held] at other
      cases other
  | some active =>
      dsimp only
      split
      · rename_i stale
        have dead : (s.tasks active).live = false := by
          have stored := inv.stored active (inv.holders args.scope active held)
          simp only [Bool.and_eq_true, Bool.or_eq_true, decide_eq_true_eq] at stale
          rcases stale.1 with noStatus | ended
          · rw [noStatus] at stored
            cases stored
          · simp [TaskHash.live, ended]
        have freed : Keeps s (s.setGate args.scope none) := Keeps.of_frame rfl rfl rfl
        have fresh : AdmissionStep (s.setGate args.scope none)
            ((s.setGate args.scope none).enqueueUncategorized args).1 := by
          refine enqueueUncategorized_step args gated ?_
          intro _ holder other
          simp at other
        refine AdmissionStep.after_release args.scope freed (fun _ _ _ => rfl) rfl ?_ fresh
        intro holder other
        rw [held] at other
        cases other
        exact dead
      · exact AdmissionStep.of_keeps (Keeps.of_frame rfl rfl rfl) rfl

theorem enqueueTaskWithCard_step
    (inv : GateInv s)
    (respects : RespectsGate s (.admission (.enqueueWithCard args))) :
    AdmissionStep s (s.enqueueTaskWithCard args).1 := by
  unfold enqueueTaskWithCard
  dsimp only
  split
  · exact AdmissionStep.refl s
  split
  · exact AdmissionStep.refl s
  split
  · exact AdmissionStep.refl s
  split
  · exact AdmissionStep.refl s
  split
  · exact AdmissionStep.refl s
  split
  · rename_i category
    exact enqueueCategory_step args category respects
  · exact enqueueWithoutCategory_step args inv respects.1

theorem admitPostRepairUt_step (args : PostRepairUtArgs) :
    AdmissionStep s (s.admitPostRepairUt args).1 := by
  unfold admitPostRepairUt
  dsimp only
  split
  · exact AdmissionStep.refl s
  split
  · exact AdmissionStep.refl s
  split
  · exact AdmissionStep.refl s
  split
  · exact AdmissionStep.refl s
  split
  · exact AdmissionStep.refl s
  · rename_i free
    have created : AdmissionStep s (s.startTask args.envelope args.context true) := by
      refine AdmissionStep.startTask s args.envelope args.context true (fun _ => rfl) ?_
      intro _ holder held
      rw [args.envelopeMr] at held
      simp [held] at free
    exact created.then_frame rfl rfl

theorem admitFinalRepairReport_step (args : ReportArgs) (now : Time) :
    AdmissionStep s (s.admitFinalRepairReport args now).1 := by
  have gates := admitFinalRepairReport_gates s args now
  refine ⟨?_, ?_, ?_⟩
  · intro task
    rcases admitFinalRepairReport_admits s args now with
      kept | ⟨absent, payload, status, admitted⟩
    · exact Or.inl (kept.tasks task).lasts
    by_cases same : task = args.reportTask
    · subst task
      refine Or.inr ⟨args.envelope, payload, by rw [status]; rfl, ?_⟩
      intro mr mrEq
      cases mrEq
    · exact Or.inl (admitted.others task same).lasts
  · intro scope holder held _
    rw [gates, held]
  · intro scope holder held
    rw [gates] at held
    exact Or.inl held

theorem createRollback_gates
    {card : CardHash}
    (count : Nat)
    (args : RollbackArgs)
    (now : Time)
    (admissible : rollbackTriggerOk (s.tasks args.repairTask) card args = true) :
    ((s.settleRepair args now).createRollback count args now).gates =
      Function.update s.gates (some args.mr) (some args.rollbackTask) := by
  have settled := (settleRepair_quiet s args now admissible).gates
  change Function.update (s.settleRepair args now).gates _ _ = _
  rw [settled]

variable {holder : TaskId}

theorem RollbackAdmissible.not_live
    {args : RollbackArgs}
    (admissible : s.RollbackAdmissible args)
    (live : (s.tasks holder).live = true) :
    holder ≠ args.rollbackTask := by
  rintro rfl
  simp [TaskHash.live, admissible.fresh] at live

theorem admitRepairRollback_gate
    (args : RollbackArgs)
    (now : Time)
    {scope : MrScope}
    (holds : s.gates scope = some holder)
    (live : (s.tasks holder).live = true) :
    (s.admitRepairRollback args now).1.gates scope = some holder ∨
      (args.repairTask = holder ∧
        (s.admitRepairRollback args now).1.gates scope = some args.rollbackTask) := by
  rcases admitRepairRollback_cases s args now with
    ⟨same, _⟩ | ⟨admissible, _, count, changed⟩
  · rw [same]
    exact Or.inl holds
  rw [changed, createRollback_gates count args now admissible.trigger]
  by_cases same : scope = some args.mr
  · subst scope
    have isRepair := (admissible.gate holder holds).resolve_right (admissible.not_live live)
    exact Or.inr ⟨isRepair.symm, by simp⟩
  · exact Or.inl (by simpa [same] using holds)

/--
An admitted rollback takes the gate from its own repair, which has ended by
then, or finds it free.
-/
theorem admitRepairRollback_step (args : RollbackArgs) (now : Time) :
    GateStep s (s.admitRepairRollback args now).1 := by
  rcases admitRepairRollback_cases s args now with
    ⟨same, _⟩ | ⟨admissible, _, count, changed⟩
  · rw [same]
    exact (AdmissionStep.refl s).gateStep
  have settled := settleRepair_quiet s args now admissible.trigger
  have created := createRollback_admits (s.settleRepair args now) count args now
  have admitted : Admits args.rollbackTask s
      ((s.settleRepair args now).createRollback count args now) :=
    Admits.after_keeps settled.toKeeps created
  have gates := createRollback_gates count args now admissible.trigger
  rw [changed]
  refine ⟨?_, ?_, ?_⟩
  · intro task
    by_cases same : task = args.rollbackTask
    · subst task
      refine Or.inr ⟨args.envelope, by simp [createRollback], by simp [createRollback], ?_⟩
      intro mr mrEq _
      cases mrEq
      simp [gates]
    · exact Or.inl (admitted.others task same).lasts
  · intro scope holder holds live liveAfter
    rw [gates]
    by_cases same : scope = some args.mr
    · subst scope
      exfalso
      have notRollback := admissible.not_live live
      have isRepair := (admissible.gate holder holds).resolve_right notRollback
      subst isRepair
      have ended := (created.others _ notRollback).terminal
        (settleRepair_terminal s args now admissible.trigger)
      simp [TaskHash.live, ended] at liveAfter
    · simpa [same] using holds
  · intro scope holder holds
    rw [gates] at holds
    by_cases same : scope = some args.mr
    · subst scope
      simp only [Function.update_self, Option.some.injEq] at holds
      subst holder
      exact Or.inr (by simp [createRollback])
    · exact Or.inl (by simpa [same] using holds)

theorem step_gateStep
    (op : Op)
    (inv : GateInv s)
    (respects : RespectsGate s op) :
    GateStep s (s.step op) := by
  cases op with
  | lease op =>
      obtain ⟨leases, fences, changed⟩ := leaseStep_frame s op
      rw [step, changed]
      exact GateStep.of_frame (fun task => (TaskKept.refl (s.tasks task)).lasts) rfl
  | effect op =>
      exact GateStep.of_settles (effectStep_quiet s op).settles
  | manifest op =>
      rcases manifestStep_cases s op with same | ⟨target, manifest, now, changed⟩
      · rw [step, same]
        exact (AdmissionStep.refl s).gateStep
      · rw [step, changed]
        refine GateStep.of_frame ?_ rfl
        intro task
        by_cases same : task = target
        · subst task
          exact ⟨by simp, by simp, by simp [TaskHash.terminal]⟩
        · simpa [same] using (TaskKept.refl (s.tasks task)).lasts
  | task op =>
      exact GateStep.of_settles (taskStep_settles s op)
  | auto op =>
      exact GateStep.of_settles (autoStep_settles s op)
  | pipeline op =>
      exact GateStep.of_settles (pipelineStep_quiet s op).settles
  | admission op =>
      cases op with
      | enqueue args =>
          exact (enqueueTask_step args inv respects).gateStep
      | enqueueWithCard args =>
          exact (enqueueTaskWithCard_step args inv respects).gateStep
      | postRepairUt args =>
          exact (admitPostRepairUt_step args).gateStep
      | reconcile mr task now =>
          exact GateStep.of_settles (reconcileAdmissionGate_settles s mr task now)
  | rollback op =>
      cases op with
      | admitRollback args now =>
          exact admitRepairRollback_step args now
      | complete lease args now =>
          exact GateStep.of_finishes (completeRepairRollback_finishes s lease args now)
      | admitReport args now =>
          exact (admitFinalRepairReport_step args now).gateStep
      | setReportState repairTask reportTask state now =>
          exact GateStep.of_settles
            (setFinalRepairReportState_quiet s repairTask reportTask state now).settles
      | completeReport args now =>
          exact GateStep.of_finishes (completeFinalRepairReport_finishes s args now)
  | card op =>
      exact GateStep.of_settles (cardStep_quiet s op).settles
  | expiry op =>
      exact GateStep.of_settles (expiryStep_quiet s op).settles

end Broker

theorem reaches_gateInv
    {start final : Broker}
    (initial : GateInv start)
    (run : Reaches Broker.step RespectsGate start final) :
    GateInv final := by
  refine Reaches.invariant GateInv ?_ run initial
  intro state op inv respects
  exact inv.step (Broker.step_gateStep op inv respects)

theorem GateInv.empty : GateInv Broker.empty where
  stored := by
    intro task payload
    cases payload
  holders := by
    intro scope holder held
    cases held
  exclusive := by
    rintro mr task ⟨live, _⟩
    cases live

/-- The operation asks for the admission of a task. -/
def Op.admissionRequest : Op → Prop
  | .admission (.enqueue _) | .admission (.enqueueWithCard _) | .admission (.postRepairUt _)
  | .rollback (.admitRollback _ _) => True
  | _ => False

/-- In every run whose requests respect the gate, an admission leaves a live holder in place unless
it is the holder's rollback, and a merge request has one unfinished repair. -/
theorem repair_gate_exclusive
    {start final : Broker}
    (initial : GateInv start)
    (run : Reaches Broker.step RespectsGate start final)
    (mr : MrKey) :
    (∀ op holder, op.admissionRequest → RespectsGate final op →
        final.gates (some mr) = some holder → (final.tasks holder).live = true →
        (final.step op).gates (some mr) = some holder ∨
          ∃ args now, op = .rollback (.admitRollback args now) ∧ args.repairTask = holder ∧
            (final.step op).gates (some mr) = some args.rollbackTask) ∧
      ∀ first second, RepairOf final mr first → RepairOf final mr second → first = second := by
  have inv := reaches_gateInv initial run
  refine ⟨?_, ?_⟩
  · intro op holder request respects held live
    unfold Op.admissionRequest at request
    split at request
    · rename_i args
      exact Or.inl ((Broker.enqueueTask_step args inv respects).gates _ holder held live)
    · rename_i args
      exact Or.inl ((Broker.enqueueTaskWithCard_step args inv respects).gates _ holder held live)
    · rename_i args
      exact Or.inl ((Broker.admitPostRepairUt_step args).gates _ holder held live)
    · rename_i args now
      rcases Broker.admitRepairRollback_gate args now held live with same | ⟨repair, moved⟩
      · exact Or.inl same
      · exact Or.inr ⟨args, now, rfl, repair, moved⟩
    · cases request
  · intro first second firstRepair secondRepair
    have firstHeld := inv.exclusive mr first firstRepair
    have secondHeld := inv.exclusive mr second secondRepair
    rw [firstHeld] at secondHeld
    exact Option.some.inj secondHeld

theorem repair_gate_second_command :
    let first : TaskId := ⟨"first", by decide⟩
    let second : TaskId := ⟨"second", by decide⟩
    let request := fun (task : TaskId) (key : String) =>
      EnqueueArgs.mk (Sample.envelope task .prCommand "/triage" key) true
    let started := Broker.empty.step (.admission (.enqueue (request first "one")))
    (started.step (.admission (.enqueue (request second "two")))).gates (some Sample.mr) =
      some first := by
  intro first second request started
  have firstRespects :
      RespectsGate Broker.empty (.admission (.enqueue (request first "one"))) := by
    refine ⟨fun _ => by decide +kernel, ?_⟩
    intro _ holder known held
    cases held
  have secondRespects : RespectsGate started (.admission (.enqueue (request second "two"))) := by
    refine ⟨fun _ => by decide +kernel, ?_⟩
    intro _ holder known _ _ found
    have missing : started.dedup (request second "two").envelope.idempotencyKey = none := by
      decide +kernel
    cases found.symm.trans missing
  have run : Reaches Broker.step RespectsGate Broker.empty started :=
    (Reaches.refl _).snoc _ firstRespects
  have kept := (repair_gate_exclusive GateInv.empty run Sample.mr).1
    (.admission (.enqueue (request second "two"))) first trivial secondRespects
    (by decide +kernel) (by decide +kernel)
  rcases kept with same | ⟨args, now, impossible, _⟩
  · exact same
  · cases impossible

namespace RedeliveredClick

def first : TaskId := ⟨"first", by decide⟩

def second : TaskId := ⟨"second", by decide⟩

def third : TaskId := ⟨"third", by decide⟩

/-- The button that repairs the whole pipeline. -/
def click (task : TaskId) (revision : Nat) : Op :=
  .admission (.enqueueWithCard (Sample.click task "pipeline" [] revision))

/-- The first repair is canceled before a worker takes it, and a command starts the second. -/
def state : Broker :=
  [.card (.save Sample.mr "card" 11 Sample.card),
    click first 0,
    .card (.transition "card" [.pipelineFailed] .repairQueued "" 2),
    .task (.requestCancel first ⟨Sample.mr, "card", "message", "author", 1⟩ "" Sample.notice
      3),
    .task (.finalizeCancel first none ⟨Sample.mr, "card", Sample.items, "", 2, Sample.notice⟩ 4),
    .admission (.enqueue ⟨Sample.envelope second .prCommand "/triage" "command", true⟩)].foldl
      Broker.step Broker.empty

/-- The state after the click was delivered once more. -/
def redelivered : Broker :=
  state.step (click third 2)

end RedeliveredClick

open RedeliveredClick in
/--
A redelivered click finds its canceled task under the deduplication key,
forgets it and takes the gate from the live second repair; both are admitted.
-/
theorem redelivered_click_takes_gate :
    state.gates (some Sample.mr) = some second ∧ (state.tasks second).live = true ∧
      redelivered.gates (some Sample.mr) = some third ∧
      RepairOf redelivered Sample.mr second ∧ RepairOf redelivered Sample.mr third := by
  refine ⟨by decide +kernel, by decide +kernel, by decide +kernel, ?_, ?_⟩
  · exact ⟨by decide +kernel, Sample.envelope second .prCommand "/triage" "command",
      by decide +kernel, rfl, by decide +kernel⟩
  · exact ⟨by decide +kernel,
      Sample.envelope third .prCommand "/repair-pipeline" "feishu-card:event",
      by decide +kernel, rfl, by decide +kernel⟩

end MrAgent
