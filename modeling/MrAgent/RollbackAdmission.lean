import MrAgent.AdmissionFrame

namespace MrAgent

open TransitionSystem

/-!
# Admission of rollbacks

`request_repair_rollback` reads the repair task and then the card, checks both
in Python, and only then evaluates `ADMIT_REPAIR_ROLLBACK_LUA`. Any call of the
broker, another request included, may come between these steps. The ghost parts
of a run record the rollbacks that were created and what each step of a request
changed.
-/

/-- The arguments of `request_repair_rollback`. -/
structure RollbackRequest where
  repairTask : TaskId
  cardId : CardId
  openMessageId : String
  senderId : String
  revision : Int
  trigger : RollbackTrigger := .postRepair
deriving DecidableEq

/-- The exceptions a request ends with. -/
inductive RollbackError where
  /-- `RepairRollbackUnavailable`. -/
  | unavailable (message : String)
  /-- `StaleCardActionError`. -/
  | staleCardAction (message : String)
  /-- `UnauthorizedRepairRollback`. -/
  | unauthorized (message : String)
  /-- `RepairAlreadyRunningError`. -/
  | alreadyRunning (message : String)
  /-- A required field of a stored hash is missing. -/
  | missingField
deriving DecidableEq

/-- What a request uses of a stored task. -/
structure StoredRepair where
  envelope : TaskEnvelope
  manifest : Option RepairCommitManifest
deriving DecidableEq

namespace Broker

variable (s : Broker)

/-- `get_task`. -/
def getStoredRepair (task : TaskId) : Except RollbackError (Option StoredRepair) :=
  let stored := s.tasks task
  if !stored.exists_ then .ok none
  else
    match stored.payload, stored.status with
    | some envelope, some _ => .ok (some ⟨envelope, stored.repairCommitManifest⟩)
    | _, _ => .error .missingField

/-- `get_triage_card`; a request uses the receiver only. -/
def getCardReceiver (cardId : CardId) : Except RollbackError (Option String) :=
  let card := s.cards cardId
  if !card.exists_ then .ok none
  else if card.cardId.isNone || card.mrUrl.isNone || card.projectId.isNone ||
      card.mrIid.isNone || card.pipelineId.isNone || card.state.isNone then
    .error .missingField
  else
    match card.receiveId with
    | some receiver => .ok (some receiver)
    | none => .error .missingField

/--
The revision handed to the script. Stored revisions count from zero, so a
negative one is compared as a revision that the card does not have.
-/
def scriptRevision (cardId : CardId) (revision : Int) : Nat :=
  if revision < 0 then (s.cards cardId).revision.getD 0 + 1 else revision.toNat

end Broker

/-- What the checks of a request leave for its script. -/
structure RollbackPlan where
  mr : MrKey
  prUrl : String
  manifest : RepairCommitManifest
  createdAt : Time
deriving DecidableEq

namespace RollbackRequest

variable (request : RollbackRequest)

/-- The checks between the two reads and the script. -/
def check
    (stored : Option StoredRepair)
    (receiver : Option String)
    (createdAt : Time) : Except RollbackError RollbackPlan :=
  match stored, receiver with
  | some stored, some receiver =>
    match stored.envelope.mr with
    | none => .error (.staleCardAction "repair task or card is unavailable")
    | some mr =>
      match stored.manifest with
      | none => .error (.unavailable "repair commit manifest is missing")
      | some manifest =>
        match manifest.validateStatic with
        | .error (_, message) => .error (.unavailable message)
        | .ok () =>
          if request.senderId ≠ receiver || request.senderId ≠ manifest.authorizedActorId then
            .error (.unauthorized "only the original repair card receiver can rollback")
          else .ok ⟨mr, stored.envelope.prUrl, manifest, createdAt⟩
  | _, _ => .error (.staleCardAction "repair task or card is unavailable")

/-- The script arguments; the task id is a hash of the repair's id. -/
def args
    (rollbackId : TaskId → TaskId)
    (plan : RollbackPlan)
    (revision : Nat) : RollbackArgs where
  repairTask := request.repairTask
  rollbackTask := rollbackId request.repairTask
  mr := plan.mr
  cardId := request.cardId
  openMessageId := request.openMessageId
  senderId := request.senderId
  revision := revision
  trigger := request.trigger
  prUrl := plan.prUrl
  createdAt := plan.createdAt
  manifest := plan.manifest

end RollbackRequest

/-- What a request makes of the script's code: an exception, or whether a task was created. -/
def rollbackReply (code : Int) : Except RollbackError Bool :=
  if code = -2 then .error (.unavailable "repair manifest is incomplete")
  else if code = -3 then .error (.unauthorized "repair rollback actor or card is invalid")
  else if code = -1 || code = -4 then .error (.staleCardAction "repair task state changed")
  else if code = -5 then .error (.alreadyRunning "another repair owns the MR gate")
  else .ok (code == 1)

/-- How far a request has come. -/
inductive RollbackCall where
  | idle
  | started (request : RollbackRequest)
  | taskRead (request : RollbackRequest) (stored : Option StoredRepair)
  | checked (request : RollbackRequest) (plan : RollbackPlan)
  | rejected (request : RollbackRequest) (error : RollbackError)
  | admitted (request : RollbackRequest) (created : Bool)
deriving DecidableEq

/-- A rollback task was created for a request, in the given state. -/
structure RollbackCreation where
  request : RollbackRequest
  before : Broker

/-- The broker, the requests in progress, and the ghost record of the run. -/
structure RollbackRun where
  broker : Broker
  calls : Nat → RollbackCall
  changes : Nat → List (Broker × Broker)
  created : List RollbackCreation

/-- Steps of a request, and any other call of the broker. -/
inductive RollbackRunOp where
  | call (op : Op)
  | begin (process : Nat) (request : RollbackRequest) (enabled : Bool)
  | readTask (process : Nat)
  | readCard (process : Nat) (createdAt : Time)
  | evaluate (process : Nat) (now : Time)

namespace RollbackRun

def start (s : Broker) : RollbackRun where
  broker := s
  calls := fun _ => .idle
  changes := fun _ => []
  created := []

/-- A step of one request: its new stage, and the state it leaves. -/
def advance (r : RollbackRun) (process : Nat) (call : RollbackCall) (after : Broker) :
    RollbackRun :=
  { r with
    broker := after
    calls := Function.update r.calls process call
    changes :=
      Function.update r.changes process (r.changes process ++ [(r.broker, after)]) }

/-- A new request replaces whatever the process did before. -/
def begin (r : RollbackRun) (process : Nat) (request : RollbackRequest) (enabled : Bool) :
    RollbackRun :=
  { r with
    calls := Function.update r.calls process
      (if enabled then .started request
      else .rejected request (.unavailable "repair rollback is disabled"))
    changes := Function.update r.changes process [] }

def readTask (r : RollbackRun) (process : Nat) : RollbackRun :=
  match r.calls process with
  | .started request =>
    match r.broker.getStoredRepair request.repairTask with
    | .error error => r.advance process (.rejected request error) r.broker
    | .ok stored => r.advance process (.taskRead request stored) r.broker
  | _ => r

def readCard (r : RollbackRun) (process : Nat) (createdAt : Time) : RollbackRun :=
  match r.calls process with
  | .taskRead request stored =>
    match r.broker.getCardReceiver request.cardId >>=
        fun receiver => request.check stored receiver createdAt with
    | .error error => r.advance process (.rejected request error) r.broker
    | .ok plan => r.advance process (.checked request plan) r.broker
  | _ => r

/--
The script. The card notification that a successful request sends afterwards is
one of the other calls.
-/
def evaluate (rollbackId : TaskId → TaskId) (r : RollbackRun) (process : Nat) (now : Time) :
    RollbackRun :=
  match r.calls process with
  | .checked request plan =>
    let revision := r.broker.scriptRevision request.cardId request.revision
    let result := r.broker.admitRepairRollback (request.args rollbackId plan revision) now
    match rollbackReply result.2.1 with
    | .error error => r.advance process (.rejected request error) result.1
    | .ok created =>
      { r.advance process (.admitted request created) result.1 with
        created := if created then r.created ++ [⟨request, r.broker⟩] else r.created }
  | _ => r

def step (rollbackId : TaskId → TaskId) (r : RollbackRun) : RollbackRunOp → RollbackRun
  | .call op => { r with broker := r.broker.step op }
  | .begin process request enabled => r.begin process request enabled
  | .readTask process => r.readTask process
  | .readCard process createdAt => r.readCard process createdAt
  | .evaluate process now => r.evaluate rollbackId process now

end RollbackRun

/-- The envelope a call may store. -/
def Op.enrolled : Op → Option TaskEnvelope
  | .admission (.enqueue args) => some args.envelope
  | .admission (.enqueueWithCard args) => some args.envelope
  | .admission (.postRepairUt args) => some args.envelope
  | .rollback (.admitRollback args _) => some args.envelope
  | .rollback (.admitReport args _) => some args.envelope
  | _ => none

/-- Rollback tasks come from `request_repair_rollback` alone. -/
def RollbackRunOp.scheduled : RollbackRunOp → Prop
  | .call op => ∀ envelope, op.enrolled = some envelope → envelope.kind ≠ .repairRollback
  | _ => True

/-- What a trigger asks of the repair task, and of the unit-test section of its card. -/
def FitsTrigger (task : TaskHash) (card : CardHash) (repair : TaskId) : RollbackTrigger → Prop
  | .postRepair => task.status = some .completed ∨ task.status = some .failed
  | .cancel =>
    task.cancelRequested = true ∧ task.status ≠ some .completed ∧ task.status ≠ some .failed
  | .autoFailure =>
    task.status = some .running ∧ ∃ state, task.pipelineRepairState = some state ∧
      state.autoRollbackRequired = true ∧ state.verifiedSelectedSuccessCount = some 0
  | .postRepairUtFailure =>
    (task.status = some .running ∨ task.status = some .publishing) ∧
      (card.postRepairUt.getD {}).taskId = some repair
  | .postRepairUtCancel =>
    task.cancelRequested = true ∧ task.status ≠ some .completed ∧ task.status ≠ some .failed ∧
      (card.postRepairUt.getD {}).taskId = some repair
  | .other _ => False

/-- The state in which a rollback was created allowed it to the sender of the request. -/
structure RollbackCreation.Authorized (c : RollbackCreation) : Prop where
  manifest : ∃ manifest,
    (c.before.tasks c.request.repairTask).repairCommitManifest = some manifest ∧
      manifest.frozen = true ∧ manifest.entries ≠ [] ∧
      manifest.authorizedActorId = c.request.senderId
  receiver : (c.before.cards c.request.cardId).receiveId = some c.request.senderId
  message : (c.before.cards c.request.cardId).openMessageId = some c.request.openMessageId
  revision : ∃ revision : Nat, (c.before.cards c.request.cardId).revision = some revision ∧
    (revision : Int) = c.request.revision
  trigger : FitsTrigger (c.before.tasks c.request.repairTask)
    (c.before.cards c.request.cardId) c.request.repairTask c.request.trigger

/-! ## The script -/

namespace Broker

variable (s : Broker)

theorem rollbackTriggerOk_fits
    {stored : TaskHash} {card : CardHash} {args : RollbackArgs}
    (admissible : rollbackTriggerOk stored card args = true) :
    FitsTrigger stored card args.repairTask args.trigger := by
  unfold rollbackTriggerOk at admissible
  cases trigger : args.trigger with
  | postRepair =>
      simpa [trigger, FitsTrigger] using admissible
  | cancel =>
      simpa [trigger, FitsTrigger] using admissible
  | autoFailure =>
      simp only [trigger] at admissible
      cases repair : stored.pipelineRepairState with
      | none =>
          simp [repair] at admissible
      | some state =>
          simp only [repair, Bool.and_eq_true, beq_iff_eq] at admissible
          obtain ⟨⟨running, required⟩, unverified⟩ := admissible
          exact ⟨running, state, repair, required, unverified⟩
  | postRepairUtFailure =>
      simpa [trigger, FitsTrigger] using admissible
  | postRepairUtCancel =>
      simpa [trigger, FitsTrigger, and_assoc] using admissible
  | other text =>
      simp [trigger] at admissible

theorem scriptRevision_current
    {cardId : CardId} {revision : Int}
    (current : (s.cards cardId).revision = some (s.scriptRevision cardId revision)) :
    ((s.scriptRevision cardId revision : Nat) : Int) = revision := by
  unfold scriptRevision at current ⊢
  split
  · rename_i negative
    -- A negative revision was replaced by one that differs from the card's.
    rw [if_pos negative] at current
    have wrong := congrArg (Option.getD · 0) current
    simp at wrong
  · rename_i natural
    exact Int.toNat_of_nonneg (Int.not_lt.mp natural)

end Broker

theorem rollbackReply_ok
    {code : Int} {created : Bool}
    (reply : rollbackReply code = .ok created) :
    created = (code == 1) := by
  unfold rollbackReply at reply
  repeat' split at reply
  all_goals cases reply
  rfl

/-! ## What the other calls do to tasks -/

/-- Every stored status stays stored, and a payload changes only to the given envelope. -/
def Stores (envelope : Option TaskEnvelope) (before after : Broker) : Prop :=
  ∀ task,
    ((before.tasks task).status.isSome = true → (after.tasks task).status.isSome = true) ∧
      ((after.tasks task).payload = (before.tasks task).payload ∨
        ∃ stored, envelope = some stored ∧ stored.taskId = task ∧
          (after.tasks task).payload = some stored)

namespace Stores

variable {before after : Broker} {envelope : Option TaskEnvelope}

theorem of_keeps
    (keeps : Keeps before after) :
    Stores envelope before after :=
  fun task => ⟨(keeps.tasks task).stored, Or.inl (keeps.tasks task).payload⟩

theorem of_finishes
    {ended : TaskId}
    (finishes : Finishes ended before after) :
    Stores envelope before after := by
  intro task
  by_cases same : task = ended
  · subst task
    exact ⟨finishes.stored, Or.inl finishes.payload⟩
  · have kept := finishes.others task same
    exact ⟨kept.stored, Or.inl kept.payload⟩

theorem of_admits
    (written : TaskEnvelope)
    (admits : Admits written.taskId before after)
    (payload : (after.tasks written.taskId).payload = some written)
    (status : (after.tasks written.taskId).status.isSome = true) :
    Stores (some written) before after := by
  intro task
  by_cases same : task = written.taskId
  · subst task
    exact ⟨fun _ => status, Or.inr ⟨written, rfl, rfl, payload⟩⟩
  · have kept := admits.others task same
    exact ⟨kept.stored, Or.inl kept.payload⟩

theorem of_enrolls
    {written : TaskEnvelope}
    (enrolls : Enrolls written before after) :
    Stores (some written) before after := by
  rcases enrolls with kept | ⟨middle, context, priority, earlier, later⟩
  · exact of_keeps kept
  · have kept := later.tasks written.taskId
    have admits : Admits written.taskId before after :=
      Enrolls.admits (Or.inr ⟨middle, context, priority, earlier, later⟩)
    refine of_admits written admits (kept.payload.trans ?_) (kept.stored ?_)
    · simp [enqueuedTask, preparedTask]
    · simp [enqueuedTask, preparedTask]

end Stores

namespace Broker

variable (s : Broker)

theorem createRollback_task (count : Nat) (args : RollbackArgs) (now : Time) :
    ((s.createRollback count args now).tasks args.rollbackTask).payload = some args.envelope ∧
      ((s.createRollback count args now).tasks args.rollbackTask).status = some .queued := by
  simp [createRollback]

theorem admitRepairRollback_stores (args : RollbackArgs) (now : Time) :
    Stores (some args.envelope) s (s.admitRepairRollback args now).1 := by
  rcases s.admitRepairRollback_cases args now with
    ⟨same, _⟩ | ⟨admissible, _, count, changed⟩
  · rw [same]
    exact Stores.of_keeps (Keeps.refl s)
  · rw [changed]
    have settled := settleRepair_quiet s args now admissible.trigger
    obtain ⟨payload, queued⟩ := createRollback_task (s.settleRepair args now) count args now
    have admits := Admits.after_keeps settled.toKeeps (createRollback_admits _ count args now)
    exact Stores.of_admits args.envelope admits payload (Option.isSome_of_eq_some queued)

theorem step_stores (op : Op) : Stores op.enrolled s (s.step op) := by
  cases op with
  | lease op =>
      obtain ⟨leases, fences, changed⟩ := leaseStep_frame s op
      rw [step, changed]
      exact fun _ => ⟨id, Or.inl rfl⟩
  | effect op =>
      exact Stores.of_keeps (effectStep_quiet s op).toKeeps
  | manifest op =>
      rcases manifestStep_cases s op with same | ⟨task, manifest, now, changed⟩
      · rw [step, same]
        exact Stores.of_keeps (Keeps.refl s)
      · rw [step, changed]
        intro other
        by_cases named : other = task
        · subst other
          simp
        · simp [named]
  | task op =>
      exact Stores.of_keeps (taskStep_settles s op).toKeeps
  | auto op =>
      exact Stores.of_keeps (autoStep_settles s op).toKeeps
  | pipeline op =>
      exact Stores.of_keeps (pipelineStep_quiet s op).toKeeps
  | admission op =>
      cases op with
      | enqueue args =>
          exact Stores.of_enrolls (enqueueTask_enrolls s args)
      | enqueueWithCard args =>
          exact Stores.of_enrolls (enqueueTaskWithCard_enrolls s args)
      | postRepairUt args =>
          exact Stores.of_enrolls (admitPostRepairUt_enrolls s args)
      | reconcile mr task now =>
          exact Stores.of_keeps (reconcileAdmissionGate_settles s mr task now).toKeeps
  | rollback op =>
      cases op with
      | admitRollback args now =>
          exact admitRepairRollback_stores s args now
      | complete lease args now =>
          exact Stores.of_finishes (completeRepairRollback_finishes s lease args now)
      | admitReport args now =>
          rcases admitFinalRepairReport_admits s args now with
            kept | ⟨_, payload, queued, admitted⟩
          · exact Stores.of_keeps kept
          · exact Stores.of_admits args.envelope admitted payload
              (Option.isSome_of_eq_some queued)
      | setReportState repairTask reportTask state now =>
          exact Stores.of_keeps
            (setFinalRepairReportState_quiet s repairTask reportTask state now).toKeeps
      | completeReport args now =>
          exact Stores.of_finishes (completeFinalRepairReport_finishes s args now)
  | card op =>
      exact Stores.of_keeps (cardStep_quiet s op).toKeeps
  | expiry op =>
      exact Stores.of_keeps (expiryStep_quiet s op).toKeeps

end Broker

/-! ## Runs -/

/-- The envelope, if it is of a rollback, names its repair and has the id made from it. -/
def NamesRepair (rollbackId : TaskId → TaskId) (task : TaskId) (envelope : TaskEnvelope) : Prop :=
  envelope.kind = .repairRollback →
    ∃ repair, envelope.payload.repairTaskId = some repair ∧ task = rollbackId repair

/-- A request that has not created a rollback. -/
def RollbackCall.uncreated (call : RollbackCall) : Prop :=
  ∀ request, call ≠ .admitted request true

/-- The invariant of a run. -/
structure RollbackRun.Sound (rollbackId : TaskId → TaskId) (r : RollbackRun) : Prop where
  unique : (r.created.map (·.request.repairTask)).Nodup
  stored : ∀ c ∈ r.created,
    (r.broker.tasks (rollbackId c.request.repairTask)).status.isSome = true
  authorized : ∀ c ∈ r.created, c.Authorized
  named : ∀ task envelope, (r.broker.tasks task).payload = some envelope →
    NamesRepair rollbackId task envelope
  untouched : ∀ process, (r.calls process).uncreated →
    ∀ change ∈ r.changes process, change.2 = change.1

namespace RollbackRun.Sound

variable {rollbackId : TaskId → TaskId} {r : RollbackRun}

theorem start : (RollbackRun.start Broker.empty).Sound rollbackId where
  unique := List.nodup_nil
  stored := by
    intro c member
    cases member
  authorized := by
    intro c member
    cases member
  named := by
    intro task envelope payload
    cases payload
  untouched := by
    intro process _ change member
    cases member

theorem tasks
    (sound : r.Sound rollbackId)
    {envelope : Option TaskEnvelope} {after : Broker}
    (stores : Stores envelope r.broker after)
    (names : ∀ stored, envelope = some stored → NamesRepair rollbackId stored.taskId stored) :
    (∀ c ∈ r.created, (after.tasks (rollbackId c.request.repairTask)).status.isSome = true) ∧
      ∀ task envelope, (after.tasks task).payload = some envelope →
        NamesRepair rollbackId task envelope := by
  constructor
  · intro c member
    exact (stores _).1 (sound.stored c member)
  · intro task present payload
    rcases (stores task).2 with same | ⟨stored, written, rfl, now⟩
    · exact sound.named task present (same.symm.trans payload)
    · obtain rfl := Option.some.inj (now.symm.trans payload)
      exact names _ written

theorem call
    (sound : r.Sound rollbackId)
    (op : Op)
    (scheduled : (RollbackRunOp.call op).scheduled) :
    RollbackRun.Sound rollbackId { r with broker := r.broker.step op } := by
  obtain ⟨stored, named⟩ := sound.tasks (r.broker.step_stores op) fun envelope enrolled kind =>
    absurd kind (scheduled envelope enrolled)
  exact ⟨sound.unique, stored, sound.authorized, named, sound.untouched⟩

theorem begin
    (sound : r.Sound rollbackId)
    (process : Nat) (request : RollbackRequest) (enabled : Bool) :
    (r.begin process request enabled).Sound rollbackId := by
  refine ⟨sound.unique, sound.stored, sound.authorized, sound.named, ?_⟩
  intro other uncreated change member
  by_cases same : other = process
  · simp [RollbackRun.begin, same] at member
  · simp only [RollbackRun.begin, Function.update_of_ne same] at uncreated member
    exact sound.untouched other uncreated change member

theorem advance_unchanged
    (sound : r.Sound rollbackId)
    {process : Nat}
    (uncreated : (r.calls process).uncreated)
    (call : RollbackCall) :
    (r.advance process call r.broker).Sound rollbackId := by
  refine ⟨sound.unique, sound.stored, sound.authorized, sound.named, ?_⟩
  intro other laterUncreated change member
  by_cases same : other = process
  · subst other
    simp only [advance, Function.update_self, List.mem_append, List.mem_singleton] at member
    rcases member with earlier | rfl
    · exact sound.untouched process uncreated change earlier
    · rfl
  · simp only [advance, Function.update_of_ne same] at laterUncreated member
    exact sound.untouched other laterUncreated change member

theorem advance_created
    (sound : r.Sound rollbackId)
    {process : Nat} {request : RollbackRequest} {envelope : TaskEnvelope} {after : Broker}
    (authorized : RollbackCreation.Authorized ⟨request, r.broker⟩)
    (fresh : (r.broker.tasks (rollbackId request.repairTask)).exists_ = false)
    (stores : Stores (some envelope) r.broker after)
    (names : NamesRepair rollbackId envelope.taskId envelope)
    (queued : (after.tasks (rollbackId request.repairTask)).status.isSome = true) :
    RollbackRun.Sound rollbackId
      { r.advance process (.admitted request true) after with
        created := r.created ++ [⟨request, r.broker⟩] } := by
  obtain ⟨stored, named⟩ := sound.tasks stores (by
    intro written equal
    obtain rfl := Option.some.inj equal
    exact names)
  -- An earlier creation for this repair would have left its task behind.
  have first : ∀ c ∈ r.created, c.request.repairTask ≠ request.repairTask := by
    intro c member same
    have present := sound.stored c member
    have empty : r.broker.tasks (rollbackId request.repairTask) = {} := by
      simpa [TaskHash.exists_] using fresh
    rw [same, empty] at present
    cases present
  refine ⟨?_, ?_, ?_, named, ?_⟩
  · rw [List.map_append, List.nodup_append]
    refine ⟨sound.unique, List.nodup_singleton _, ?_⟩
    intro earlier member last only
    obtain ⟨c, created, rfl⟩ := List.mem_map.mp member
    rw [List.mem_singleton.mp only]
    exact first c created
  · intro c member
    rcases List.mem_append.mp member with old | new
    · exact stored c old
    · rw [List.mem_singleton.mp new]
      exact queued
  · intro c member
    rcases List.mem_append.mp member with old | new
    · exact sound.authorized c old
    · rw [List.mem_singleton.mp new]
      exact authorized
  · intro other uncreated change member
    by_cases same : other = process
    · subst other
      exact absurd (Function.update_self ..) (uncreated request)
    · simp only [advance, Function.update_of_ne same] at uncreated member
      exact sound.untouched other uncreated change member

theorem readTask
    (sound : r.Sound rollbackId)
    (process : Nat) :
    (r.readTask process).Sound rollbackId := by
  unfold RollbackRun.readTask
  split
  · rename_i request started
    have uncreated : (r.calls process).uncreated := by
      intro other
      simp [started]
    split
    · exact sound.advance_unchanged uncreated _
    · exact sound.advance_unchanged uncreated _
  · exact sound

theorem readCard
    (sound : r.Sound rollbackId)
    (process : Nat) (createdAt : Time) :
    (r.readCard process createdAt).Sound rollbackId := by
  unfold RollbackRun.readCard
  split
  · rename_i request stored read
    have uncreated : (r.calls process).uncreated := by
      intro other
      simp [read]
    split
    · exact sound.advance_unchanged uncreated _
    · exact sound.advance_unchanged uncreated _
  · exact sound

theorem evaluate
    (sound : r.Sound rollbackId)
    (process : Nat) (now : Time) :
    (r.evaluate rollbackId process now).Sound rollbackId := by
  unfold RollbackRun.evaluate
  split
  case h_2 => exact sound
  rename_i request plan checked
  have uncreated : (r.calls process).uncreated := by
    intro other
    simp [checked]
  dsimp only
  generalize passed : request.args rollbackId plan
    (r.broker.scriptRevision request.cardId request.revision) = args
  rcases r.broker.admitRepairRollback_cases args now with
    ⟨same, refused⟩ | ⟨admissible, code, count, changed⟩
  · rw [same]
    split
    · exact sound.advance_unchanged uncreated _
    · rename_i created reply
      have repeated : created = false :=
        (rollbackReply_ok reply).trans (beq_eq_false_iff_ne.mpr refused)
      rw [repeated]
      exact sound.advance_unchanged uncreated _
  · have reply : rollbackReply (r.broker.admitRepairRollback args now).2.1 = .ok true := by
      rw [code]
      rfl
    rw [reply]
    have stores := r.broker.admitRepairRollback_stores args now
    have queued := ((r.broker.settleRepair args now).createRollback_task count args now).2
    rw [← changed] at queued
    subst passed
    refine sound.advance_created ?_ admissible.fresh stores ?_ (Option.isSome_of_eq_some queued)
    · exact ⟨admissible.manifest, admissible.receiver, admissible.message,
        ⟨_, admissible.revision, r.broker.scriptRevision_current admissible.revision⟩,
        Broker.rollbackTriggerOk_fits admissible.trigger⟩
    · exact fun _ => ⟨request.repairTask, rfl, rfl⟩

theorem step
    (sound : r.Sound rollbackId)
    (op : RollbackRunOp)
    (scheduled : op.scheduled) :
    (r.step rollbackId op).Sound rollbackId := by
  cases op with
  | call op =>
      exact sound.call op scheduled
  | begin process request enabled =>
      exact sound.begin process request enabled
  | readTask process =>
      exact sound.readTask process
  | readCard process createdAt =>
      exact sound.readCard process createdAt
  | evaluate process now =>
      exact sound.evaluate process now

end RollbackRun.Sound

/-- In every run a repair gets at most one rollback, created for the authorized actor on a complete
manifest and the current revision; a rejected request has changed nothing. -/
theorem rollback_admission_unique_authorized_atomic
    (rollbackId : TaskId → TaskId)
    {r : RollbackRun}
    (run : Reaches (RollbackRun.step rollbackId) (fun _ op => op.scheduled)
      (RollbackRun.start Broker.empty) r) :
    (r.created.map (·.request.repairTask)).Nodup ∧
      (∀ first second firstEnvelope secondEnvelope,
        (r.broker.tasks first).payload = some firstEnvelope →
        (r.broker.tasks second).payload = some secondEnvelope →
        firstEnvelope.kind = .repairRollback →
        secondEnvelope.kind = .repairRollback →
        firstEnvelope.payload.repairTaskId = secondEnvelope.payload.repairTaskId →
        first = second) ∧
      (∀ c ∈ r.created, c.Authorized) ∧
      ∀ process request error, r.calls process = .rejected request error →
        ∀ change ∈ r.changes process, change.2 = change.1 := by
  have sound := run.invariant (RollbackRun.Sound rollbackId)
    (fun _ op sound scheduled => sound.step op scheduled) RollbackRun.Sound.start
  refine ⟨sound.unique, ?_, sound.authorized, ?_⟩
  · intro first second firstEnvelope secondEnvelope firstPayload secondPayload firstKind
      secondKind same
    obtain ⟨repair, names, rfl⟩ := sound.named first firstEnvelope firstPayload firstKind
    obtain ⟨other, otherNames, rfl⟩ := sound.named second secondEnvelope secondPayload secondKind
    rw [names, otherNames] at same
    rw [Option.some.inj same]
  · intro process request error rejected
    refine sound.untouched process ?_
    intro other
    simp [rejected]

namespace RollbackSample

open Sample

/-- The id made from the sample repair's. -/
def rollbackId (_ : TaskId) : TaskId :=
  ⟨"0280f021934e2a0cd940f9846ac5b4ee", by decide⟩

def sha : String := "0000000000000000000000000000000000000000"

/-- The one commit of the repair. -/
def commit : AppendArgs where
  entry := ⟨1, "1111111111111111111111111111111111111111", sha, sha, "effect", "marker", "today"⟩
  baseTreeSha := sha
  sourceBranch := "fix"
  authorizedActorId := "author"

/-- A repair pushes a commit and fails. -/
def failedRepair : List RollbackRunOp :=
  [.call (.card (.save mr "card" 11 card)),
    .call (.admission (.enqueueWithCard (click repair "format" [] 0))),
    .call (.task (.assign repair none workerA 2)),
    .call (.task (.transition repair .start none {} 3)),
    .call (.manifest (.append repair none commit 4)),
    .call (.manifest (.freeze repair none "today" 5 (by decide))),
    .call (.task (.transition repair .fail none {} 6))]

/-- A click on the rollback button. -/
def request (sender : String) : RollbackRequest where
  repairTask := repair
  cardId := "card"
  openMessageId := "message"
  senderId := sender
  revision := 1

/-- Two deliveries of the author's click race; somebody else clicks as well. -/
def clicks : List RollbackRunOp :=
  [.begin 0 (request "author") true, .begin 1 (request "author") true,
    .readTask 0, .readTask 1, .readCard 0 7, .readCard 1 7,
    .begin 2 (request "reader") true, .readTask 2, .readCard 2 8,
    .evaluate 1 9, .evaluate 0 10]

def final : RollbackRun :=
  (failedRepair ++ clicks).foldl (RollbackRun.step rollbackId) (RollbackRun.start Broker.empty)

end RollbackSample

open RollbackSample in
theorem racing_clicks_create_one_rollback :
    final.created.map (·.request) = [request "author"] ∧
      (∀ c ∈ final.created, c.Authorized) ∧
      final.calls 0 = .admitted (request "author") false ∧
      final.calls 2 = .rejected (request "reader")
        (.unauthorized "only the original repair card receiver can rollback") ∧
      ∀ change ∈ final.changes 2, change.2 = change.1 := by
  have run : Reaches (RollbackRun.step rollbackId) (fun _ op => op.scheduled)
      (RollbackRun.start Broker.empty) final := by
    have clicked : RollbackRunOp.scheduled
        (.call (.admission (.enqueueWithCard (Sample.click Sample.repair "format" [] 0)))) := by
      intro envelope enrolled
      obtain rfl := Option.some.inj enrolled
      decide
    have quiet : ∀ op, op.enrolled = none → RollbackRunOp.scheduled (.call op) := by
      intro op none envelope enrolled
      cases none.symm.trans enrolled
    exact Reaches.of_follows ⟨quiet _ rfl, clicked, quiet _ rfl, quiet _ rfl, quiet _ rfl,
      quiet _ rfl, quiet _ rfl, trivial, trivial, trivial, trivial, trivial, trivial, trivial,
      trivial, trivial, trivial, trivial, trivial⟩
  have outcome : final.created.map (·.request) = [request "author"] ∧
      final.calls 0 = .admitted (request "author") false ∧
      final.calls 2 = .rejected (request "reader")
        (.unauthorized "only the original repair card receiver can rollback") := by
    decide +kernel
  obtain ⟨created, repeated, refused⟩ := outcome
  obtain ⟨_, _, authorized, untouched⟩ :=
    rollback_admission_unique_authorized_atomic rollbackId run
  exact ⟨created, authorized, repeated, refused, untouched 2 _ _ refused⟩

end MrAgent
